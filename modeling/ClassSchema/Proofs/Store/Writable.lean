import ClassSchema.Proofs.Store.Cache

/-!
# When the cache file can be written

A cache file that was written once can be written again, and also in any tree with fewer entries. Signatures
can be recorded and forgotten there, once and again.
-/

namespace ClassSchema

namespace SignatureCache

open FileTree ClassSchema.Path

/-- The folders above the file can be made, and no folder stands in its place. -/
def Writable (path : String) (t : FileTree) : Prop :=
  ∃ parts name t₁, pieces path = parts ++ [name] ∧ Proper name ∧
    t.makeAlong (pieces (parent path)) [] = .ok t₁ ∧ t₁.kindAt (arrival parts [] ++ [name]) ≠ some true

variable {path : String} {t t₁ u : FileTree} {c : SignatureCache} {off : List String}

private theorem walk_parent {parts : List String} {name : String} (h : pieces path = parts ++ [name])
    (hname : Proper name) (p : List String) :
    p ∈ walk (pieces (parent path)) [] ↔ p ∈ walk parts [] := by
  rw [pieces_parent_of_name h (not_or.mpr ⟨hname.1, hname.2.1⟩)]
  split
  · next hnil =>
    rw [hnil]
    simp [walk, step]
  · rfl

theorem writable_of_writeText {t' : FileTree} {text : String}
    (hfolders : t.makeAlong (pieces (parent path)) [] = .ok t₁) (h : t₁.writeText path text = .ok t') :
    Writable path t := by
  obtain ⟨place, hplace, hfolder, -⟩ := writeText_ok h
  obtain ⟨parts, name, hparts, hname, -, rfl⟩ := slotOf?_eq_some_iff.mp hplace
  exact ⟨parts, name, t₁, hparts, hname, hfolders, mt any_isFolder_iff.mpr hfolder⟩

/-- Writing the cache succeeds, and can be done again. -/
theorem Writable.flush (h : Writable path t) (hc : c.path = some path) :
    ∃ t', c.flush t = .ok t' ∧ Writable path t' := by
  obtain ⟨parts, name, t₁, hpieces, hname, hfolders, htarget⟩ := h
  have hwalk : ∀ p ∈ walk parts [], t₁.kindAt p = some true := fun p hp =>
    kindAt_of_mem_walk hfolders ((walk_parent hpieces hname p).mpr hp)
  have hslot : t₁.slot? path = some (arrival parts [] ++ [name]) :=
    slotOf?_eq_some_iff.mpr ⟨parts, name, hpieces, hname, hwalk, rfl⟩
  let t' := t₁.put (arrival parts [] ++ [name]) (.file c.text)
  have hwrite : t₁.writeText path c.text = .ok t' := by
    rw [writeText, hslot]
    dsimp only
    rw [if_neg (mt any_isFolder_iff.mp htarget)]
  have hself : t'.kindAt (arrival parts [] ++ [name]) = some false := by
    refine kindAt_put_self ?_
    rw [List.dropLast_concat]
    exact hwalk _ (arrival_mem_walk parts [])
  refine ⟨t', ?_, parts, name, t', hpieces, hname, ?_, by simp [hself]⟩
  · rw [SignatureCache.flush, hc]
    dsimp only
    rw [hfolders]
    dsimp only
    rw [hwrite]
  · refine makeAlong_eq_self fun p hp => ?_
    have hfolder := hwalk p ((walk_parent hpieces hname p).mp hp)
    have hne : p ≠ arrival parts [] ++ [name] := by
      rintro rfl
      exact htarget hfolder
    rw [kindAt_put_of_ne (isLeaf_file _) htarget hne, hfolder]

theorem writable_of_flush {t' : FileTree} (hc : c.path = some path) (h : c.flush t = .ok t') :
    Writable path t := by
  obtain ⟨hnone, -⟩ | ⟨path', hpath, herror | ⟨made, t'', hfolders, hwrite, -⟩⟩ := flush_cases c t
  · rw [hc] at hnone
    cases hnone
  · rw [h] at herror
    cases herror
  · obtain rfl := Option.some.inj (hc.symm.trans hpath)
    exact writable_of_writeText hfolders hwrite

theorem Writable.of_fitsIn (h : Writable path u) (hfit : FitsIn off t u)
    (hroot : t.kindAt [] = some true) (havoid : Path.Avoids path off) : Writable path t := by
  obtain ⟨parts, name, u₁, hpieces, hname, hfolders, htarget⟩ := h
  obtain ⟨t₁, hmake, hfit₁⟩ := hfit.makeAlong havoid.parent hroot hfolders
  refine ⟨parts, name, t₁, hpieces, hname, hmake, fun hfolder => htarget ?_⟩
  have hplace : arrival parts [] ++ [name] ∈ walk (pieces path) [] := by
    rw [hpieces, mem_walk_concat, step_of_proper hname]
    exact .inr rfl
  rw [hfit₁ _ (havoid _ hplace) (by simp [hfolder]), hfolder]

theorem fitsIn_flush {u' : FileTree} (hfit : FitsIn off t u) (h : c.flush u = .ok u') :
    FitsIn off t u' := by
  obtain ⟨-, hsame⟩ | ⟨path, -, herror | ⟨u₁, u'', hfolders, hwrite, hsame⟩⟩ := flush_cases c u
  · rw [hsame] at h
    rw [← Except.ok.inj h]
    exact hfit
  · rw [h] at herror
    cases herror
  · rw [hsame] at h
    obtain rfl := Except.ok.inj h
    obtain ⟨place, hplace, hfolder, rfl⟩ := writeText_ok hwrite
    obtain ⟨parts, name, -, -, hwalk, rfl⟩ := slotOf?_eq_some_iff.mp hplace
    have hfile := mt any_isFolder_iff.mpr hfolder
    refine (hfit.makeAlong_right hfolders).put_right (isLeaf_file _) hfile ?_
    cases hkind : u₁.kindAt (arrival parts [] ++ [name]) with
    | none => exact .inl rfl
    | some b =>
      have hb : b = false := by
        cases b with
        | false => rfl
        | true => exact absurd hkind hfile
      rw [kindAt_put_self (kindAt_dropLast (by simp) (by simp [hkind])), hb]
      exact .inr rfl

end SignatureCache

/-- The cache is kept in memory, or its file can be written. -/
def StoreState.CacheWritable (s : StoreState) : Prop :=
  ∀ path ∈ s.cache.path, SignatureCache.Writable path s.tree

namespace SignatureCache

variable {s : StoreState}

theorem exists_replace (h : s.CacheWritable) (entries : Dict String) :
    ∃ s', replace entries s = .ok () s' ∧ s'.CacheWritable := by
  rw [replace]
  cases hpath : s.cache.path with
  | none =>
    refine ⟨_, by rw [flush, hpath], fun path hp => ?_⟩
    rw [hpath] at hp
    cases hp
  | some path =>
    obtain ⟨tree, hflush, hagain⟩ := (h path hpath).flush (c := { s.cache with entries }) hpath
    dsimp only
    rw [hflush]
    refine ⟨_, rfl, fun other hother => ?_⟩
    rw [hpath] at hother
    rw [← Option.some.inj hother]
    exact hagain

theorem exists_put (h : s.CacheWritable) (key value : String) :
    ∃ s', put key value s = .ok () s' ∧ s'.CacheWritable := by
  rw [put]
  split
  · exact ⟨s, rfl, h⟩
  · exact exists_replace h _

theorem exists_delete (h : s.CacheWritable) (key : String) :
    ∃ s', delete key s = .ok () s' ∧ s'.CacheWritable := by
  rw [delete]
  split
  · exact exists_replace h _
  · exact ⟨s, rfl, h⟩

end SignatureCache

end ClassSchema
