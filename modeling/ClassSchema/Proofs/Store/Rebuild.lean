import ClassSchema.Proofs.Store.History
import ClassSchema.Proofs.Store.Writable

/-!
# Storing a schema alone

Where a row of schemas could be stored, the last of them can be stored alone, provided that all of its
definitions can be rendered. Neither the root folder nor the cache file is in the way then.
-/

namespace ClassSchema

namespace Store

open FileTree SignatureCache

variable {store : Store} {schema : Schema} {name : String} {staged staged' : Dict FileTree}
  {s s' : StoreState} {t t₁ t₂ : FileTree}

theorem Swapped.fitsIn (h : store.Swapped name staged t t₁) (h' : store.Swapped name staged' t t₂) :
    FitsIn (store.livePlace name) t₁ t₂ := by
  intro q hq hthere
  by_cases hback : store.backupPlace name <+: q
  · exact absurd (kindAt_eq_none_iff.mpr (h.backup q hback hq)) hthere
  · rw [kindAt_eq_of_contentAt (h.apart q hq hback), kindAt_eq_of_contentAt (h'.apart q hq hback)]

theorem FitsIn.swapped (hfit : FitsIn (store.livePlace name) t t₁)
    (hbackup : ∀ q, store.backupPlace name <+: q → ¬ store.livePlace name <+: q → t.at? q = none)
    (h : store.Swapped name staged t₁ t₂) : FitsIn (store.livePlace name) t t₂ := by
  intro q hq hthere
  by_cases hback : store.backupPlace name <+: q
  · exact absurd (kindAt_eq_none_iff.mpr (hbackup q hback hq)) hthere
  · rw [kindAt_eq_of_contentAt (h.apart q hq hback), hfit q hq hthere]

/-- A tree that fits in apart from the live folder, and to which the cache can be written if anything
of the schema is remembered. -/
structure Spare (store : Store) (name : String) (t : FileTree) (s : StoreState) : Prop where
  fits : FitsIn (store.livePlace name) t s.tree
  writable : ∀ artifact, s.cache.get? (keyOf name artifact) ≠ none →
    ∀ path ∈ s.cache.path, Writable path t

section Spare

variable {artifact : String}

private theorem Spare.of_same (h : Spare store name t s) (hcache : s'.cache = s.cache)
    (hfits : FitsIn (store.livePlace name) t s'.tree) : Spare store name t s' where
  fits := hfits
  writable := by
    rw [hcache]
    exact h.writable

theorem Spare.replace (h : Spare store name t s) (hroot : t.kindAt [] = some true)
    (hapart : store.Apart name s) {entries : Dict String}
    (hreplace : SignatureCache.replace entries s = .ok () s') : Spare store name t s' := by
  obtain ⟨hcache, hflush⟩ := replace_ok hreplace
  refine ⟨fitsIn_flush h.fits hflush, fun _ _ path hpath => ?_⟩
  rw [hcache] at hpath
  exact (writable_of_flush hpath hflush).of_fitsIn h.fits hroot (hapart.cache path hpath)

theorem Spare.put (h : Spare store name t s) (hroot : t.kindAt [] = some true)
    (hapart : store.Apart name s) {key value : String}
    (hput : SignatureCache.put key value s = .ok () s') : Spare store name t s' := by
  rw [SignatureCache.put] at hput
  split at hput
  · obtain ⟨-, rfl⟩ := EStateM.Result.ok.inj hput
    exact h
  · exact h.replace hroot hapart hput

theorem Spare.deleteStale (h : Spare store name t s) (hroot : t.kindAt [] = some true)
    (hapart : store.Apart name s) {file : String}
    (hdelete : deleteStale name (store.livePlace name) file s = .ok () s') :
    Spare store name t s' := by
  rw [Store.deleteStale] at hdelete
  split at hdelete
  · have hremoved : Spare store name t
        { s with tree := s.tree.remove (store.livePlace name ++ [file]) } := by
      refine h.of_same rfl fun q hq ht => ?_
      have hbelow : ¬ store.livePlace name ++ [file] <+: q := fun hp =>
        hq ((List.prefix_append _ _).trans hp)
      rw [kindAt_remove_of_not_below hbelow, h.fits q hq ht]
    rw [SignatureCache.delete] at hdelete
    split at hdelete
    · exact hremoved.replace hroot (hapart.of_path rfl) hdelete
    · obtain ⟨-, rfl⟩ := EStateM.Result.ok.inj hdelete
      exact hremoved
  · cases hdelete

/-- What follows after the live folder was swapped in. -/
theorem Spare.finish (hapart : store.Apart schema.name s) (st : Stages store schema s s')
    (h : Spare store schema.name t st.swapped) (hroot : t.kindAt [] = some true) :
    Spare store schema.name t s' := by
  have hpath : st.swapped.cache.path = s.cache.path := by rw [st.cache_ok, (st.opened_ok hapart).1]
  have hremembered := Storing.each_preserves
    (P := fun s => store.Apart schema.name s ∧ Spare store schema.name t s)
    (fun o _ s₁ s₂ h₁ hput =>
      ⟨h₁.1.of_path (sameAt_put h₁.1.cache hput).path, h₁.2.put hroot h₁.1 hput⟩)
    ⟨hapart.of_path hpath, h⟩ st.remember_ok
  have hdeleted := reconcile_preserves
    (P := fun s => store.Apart schema.name s ∧ Spare store schema.name t s)
    (fun _ _ _ h₁ hstep =>
      ⟨h₁.1.of_path (path_deleteStale hstep), h₁.2.deleteStale hroot h₁.1 hstep⟩)
    hremembered st.reconcile_ok
  exact hdeleted.2

theorem Spare.persist (h : Spare store schema.name t s) (hroot : t.kindAt [] = some true)
    (hbackup : ∀ q, store.backupPlace schema.name <+: q → ¬ store.livePlace schema.name <+: q →
      t.at? q = none)
    (hapart : store.Apart schema.name s) (st : Stages store schema s s') :
    Spare store schema.name t s' := by
  obtain ⟨hcache, hmake⟩ := openRoot_ok st.openRoot_ok
  have hfits := FitsIn.swapped (h.fits.makeAlong_right hmake) hbackup st.swap_ok
  exact Spare.finish hapart st (h.of_same (st.cache_ok.trans hcache) hfits) hroot

end Spare

end Store

end ClassSchema
