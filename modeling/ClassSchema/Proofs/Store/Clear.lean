import ClassSchema.Proofs.Store.InStep

/-!
# Clearing a schema

Storing a schema keeps the way to its folder. Clearing takes the folder away by that way, and forgets every
key of the schema.
-/

namespace ClassSchema

namespace SignatureCache

variable {s s' : StoreState} {place : List String}

theorem sameAt_each_delete {keys : List String} (havoid : s.cache.Avoids place)
    (h : Storing.each delete keys s = .ok () s') : s.SameAt place s' :=
  Storing.each_preserves (P := s.SameAt place)
    (fun _ _ _ _ hsame hstep => hsame.trans (sameAt_delete (hsame.avoids havoid) hstep)) (.refl place s) h

theorem get?_each_delete {keys : List String} (h : Storing.each delete keys s = .ok () s')
    (key : String) : s'.cache.get? key = if key ∈ keys then none else s.cache.get? key := by
  induction keys generalizing s with
  | nil =>
    obtain rfl := Storing.each_nil_ok_iff.mp h
    simp
  | cons first keys ih =>
    obtain ⟨s₁, hfirst, hrest⟩ := Storing.each_cons_ok_iff.mp h
    rw [ih hrest, get?_delete hfirst]
    by_cases hkey : key = first
    · simp [hkey]
    · simp [hkey]

end SignatureCache

namespace Store

open FileTree ClassSchema.Path

/-- The paths of the store do not lead through the folders of a schema. -/
structure Secluded (store : Store) (name : String) (s : StoreState) : Prop
    extends store.Apart name s where
  spare : s.cache.Avoids (store.backupPlace name)

variable {store : Store} {schema : Schema} {name : String} {s s' : StoreState}

theorem Secluded.of_path (h : store.Secluded name s) (hpath : s'.cache.path = s.cache.path) :
    store.Secluded name s' where
  toApart := h.toApart.of_path hpath
  spare := h.spare.of_path hpath

theorem kindAt_deleteStale {place p : List String} {file : String} (hp : s.tree.kindAt p = some true)
    (h : deleteStale name place file s = .ok () s') : s'.tree.kindAt p = some true := by
  rw [deleteStale] at h
  split at h
  · next text htext =>
    rw [get?_entriesAt] at htext
    have hfile : s.tree.kindAt (place ++ [file]) = some false := by
      rw [kindAt, htext]
      rfl
    have hnot : ¬ place ++ [file] <+: p := by
      rintro ⟨below, rfl⟩
      by_cases hbelow : below = []
      · rw [hbelow, List.append_nil, hfile] at hp
        cases hp
      · rw [kindAt_below hbelow (by simp [hfile])] at hp
        cases hp
    rw [← Storing.after_of_ok h]
    refine SignatureCache.kindAt_after_delete _ ?_
    rw [kindAt_remove_of_not_below hnot, hp]
  · cases h

theorem Stages.kindAt_kept (st : Stages store schema s s') {p : List String}
    (hp : st.swapped.tree.kindAt p = some true) : s'.tree.kindAt p = some true :=
  reconcile_preserves (P := fun s => s.tree.kindAt p = some true)
    (fun _ _ _ h₁ hstep => kindAt_deleteStale h₁ hstep) (kindAt_remember st.remember_ok hp) st.reconcile_ok

theorem Stages.kindAt_ways (st : Stages store schema s s') {p : List String}
    (hp : p ∈ store.ways schema.name) : s'.tree.kindAt p = some true :=
  st.kindAt_kept ((st.swap_ok.swappable st.swappable).folders p hp)

theorem Stages.located (st : Stages store schema s s') : store.Located schema.name s'.tree where
  named := st.swappable.named
  folders := fun p hp =>
    ⟨st.kindAt_ways (mem_ways_of_live hp), (st.swappable.apart p (mem_ways_of_live hp)).1⟩

theorem at?_deleteStale {place p : List String} {file : String} (havoid : s.cache.Avoids p)
    (hplace : ¬ place <+: p) (hnone : s.tree.at? p = none) (h : deleteStale name place file s = .ok () s') :
    s'.cache.path = s.cache.path ∧ s'.tree.at? p = none := by
  rw [deleteStale] at h
  split at h
  · have haway (t : FileTree) : (StoreState.mk t s.cache).cache.Avoids p := havoid
    have hsame := SignatureCache.sameAt_delete (haway _) h
    have hbelow : ¬ place ++ [file] <+: p := fun hp => hplace ((List.prefix_append _ _).trans hp)
    refine ⟨hsame.path, ?_⟩
    rw [hsame.tree, ← contentAt_eq_none_iff]
    exact (contentAt_remove_of_not_below hbelow).trans (contentAt_eq_none_iff.mpr hnone)
  · cases h

theorem Stages.at?_backup (halone : store.Secluded schema.name s) (st : Stages store schema s s')
    {p : List String} (hback : store.backupPlace schema.name <+: p)
    (hlive : ¬ store.livePlace schema.name <+: p) : s'.tree.at? p = none := by
  have hspare {u : StoreState} (hpath : u.cache.path = s.cache.path) : u.cache.Avoids p :=
    (halone.of_path hpath).spare.mono hback
  have hpath : st.swapped.cache.path = s.cache.path := by
    rw [st.cache_ok, (st.opened_ok halone.toApart).1]
  have hsame := sameAt_remember (hspare hpath) st.remember_ok
  have hlast := reconcile_preserves
    (P := fun u => u.cache.path = s.cache.path ∧ u.tree.at? p = none)
    (fun file u u' hu hstep => by
      obtain ⟨hkept, hnone⟩ := at?_deleteStale (hspare hu.1) hlive hu.2 hstep
      exact ⟨hkept.trans hu.1, hnone⟩)
    ⟨hsame.path.trans hpath, hsame.tree.trans (st.swap_ok.backup p hback hlive)⟩ st.reconcile_ok
  exact hlast.2

theorem Stages.swappable_after (hschema : schema.Named) (halone : store.Secluded schema.name s)
    (st : Stages store schema s s') : store.Swappable schema.name s'.tree := by
  obtain ⟨es, hes, -⟩ := (st.effect hschema halone.toApart).folder
  have hlive : s'.tree.kindAt (store.livePlace schema.name) = some true := by
    rw [kindAt, hes]
    rfl
  refine st.swappable.of_kindAt (fun p hp => st.kindAt_ways hp) (by simp [hlive]) ?_
  by_cases hover : store.livePlace schema.name <+: store.backupPlace schema.name
  · rw [← (prefix_iff_eq (st.swappable.apart _ (dropLast_backupPlace store schema.name)).1).mp hover, hlive]
    simp
  · rw [kindAt, st.at?_backup halone List.prefix_rfl hover]
    simp

theorem removeFolder_ok (hlive : s.tree.at? (store.livePlace name) = none ∨
      s.tree.kindAt (store.livePlace name) = some true ∧ store.Located name s.tree)
    (h : store.removeFolder name s = .ok () s') :
    s'.cache = s.cache ∧ s'.tree.at? (store.livePlace name) = none := by
  rw [removeFolder] at h
  rcases hlive with hnone | ⟨hfolder, hlocated⟩
  · have hmissing : s.tree.hasFolder (store.schemaPath name) = false := by
      rw [hasFolder, lookAt?_of_none hnone]
      rfl
    rw [hmissing, if_neg (by simp)] at h
    obtain ⟨-, rfl⟩ := EStateM.Result.ok.inj h
    exact ⟨rfl, hnone⟩
  · rw [if_pos (hlocated.hasFolder hfolder)] at h
    obtain ⟨hcache, hremove⟩ := removeAll_ok h
    rw [hlocated.removeFolder hfolder] at hremove
    rw [← (Prod.mk.inj hremove).2]
    exact ⟨hcache, at?_remove_self hlocated.ne_nil⟩

theorem clear_steps (h : store.clear name s = .ok () s') :
    ∃ s₁, store.removeFolder name s = .ok () s₁ ∧ Storing.each SignatureCache.delete
      (s₁.cache.entries.keys.filter fun k => (SignatureCache.keyOf name "").toList.isPrefixOf k.toList) s₁ =
        .ok () s' := by
  obtain ⟨⟨⟩, s₁, hremove, h⟩ := Storing.bind_ok_iff.mp h
  obtain ⟨_, _, hget, hdelete⟩ := Storing.bind_ok_iff.mp h
  obtain ⟨rfl, rfl⟩ := EStateM.Result.ok.inj hget
  exact ⟨s₁, hremove, hdelete⟩

theorem get?_clear {key : String} (h : store.clear name s = .ok () s')
    (hkey : (SignatureCache.keyOf name "").toList <+: key.toList) : s'.cache.get? key = none := by
  obtain ⟨s₁, -, hdelete⟩ := clear_steps h
  rw [SignatureCache.get?_each_delete hdelete]
  split
  · rfl
  · next hmem =>
    by_contra hremembered
    refine hmem (List.mem_filter.mpr ⟨(Dict.mem_keys_iff _ _).mpr hremembered, ?_⟩)
    exact List.isPrefixOf_iff_prefix.mpr hkey

/-- A cleared schema is as one that was never stored. -/
theorem clear_ok (havoid : s.cache.Avoids (store.livePlace name))
    (hlive : s.tree.at? (store.livePlace name) = none ∨
      s.tree.kindAt (store.livePlace name) = some true ∧ store.Located name s.tree)
    (h : store.clear name s = .ok () s') :
    s'.cache.path = s.cache.path ∧ store.Empty name s' := by
  have hforgotten (artifact : String) : s'.cache.get? (SignatureCache.keyOf name artifact) = none :=
    get?_clear h (SignatureCache.isPrefix_keyOf name artifact)
  obtain ⟨s₁, hremove, hdelete⟩ := clear_steps h
  obtain ⟨hcache, hgone⟩ := removeFolder_ok hlive hremove
  have havoid₁ : s₁.cache.Avoids (store.livePlace name) := by
    rw [hcache]
    exact havoid
  have hsame := SignatureCache.sameAt_each_delete havoid₁ hdelete
  exact ⟨hsame.path.trans (congrArg _ hcache), hsame.tree.trans hgone, hforgotten⟩

end Store

end ClassSchema
