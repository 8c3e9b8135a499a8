import ClassSchema.Proofs.Files.Kinds
import ClassSchema.Proofs.Traverse
import ClassSchema.Store.Cache

/-!
# Changes of the signature cache

A change of one key leaves all other keys as they were, and all places apart from the cache file.
-/

namespace ClassSchema

namespace Storing

variable {α β : Type} {s s' : StoreState}

theorem bind_ok_iff {x : Storing α} {f : α → Storing β} {b : β} :
    (x >>= f) s = .ok b s' ↔ ∃ a s₁, x s = .ok a s₁ ∧ f a s₁ = .ok b s' :=
  ClassSchema.bind_ok_iff

theorem pure_ok_iff {a b : α} : (pure a : Storing α) s = .ok b s' ↔ a = b ∧ s = s' := by
  simp [pure, EStateM.pure]

theorem each_cons_ok_iff {f : α → Storing Unit} {x : α} {xs : List α} :
    each f (x :: xs) s = .ok () s' ↔ ∃ s₁, f x s = .ok () s₁ ∧ each f xs s₁ = .ok () s' := by
  refine bind_ok_iff.trans ⟨?_, ?_⟩
  · rintro ⟨⟨⟩, s₁, hx, hxs⟩
    exact ⟨s₁, hx, hxs⟩
  · rintro ⟨s₁, hx, hxs⟩
    exact ⟨(), s₁, hx, hxs⟩

theorem each_nil_ok_iff {f : α → Storing Unit} : each f [] s = .ok () s' ↔ s = s' := by
  refine pure_ok_iff.trans ?_
  simp

theorem collect_cons (f : α → Storing β) (x : α) (xs : List α) (s : StoreState) :
    collect f (x :: xs) s = match f x s with
      | .error e s₁ => .error e s₁
      | .ok y s₁ => match collect f xs s₁ with
        | .error e s₂ => .error e s₂
        | .ok ys s₂ => .ok (y :: ys) s₂ := by
  rw [collect, bind_apply]
  cases f x s with
  | error e s₁ => rfl
  | ok y s₁ =>
    dsimp only
    rw [bind_apply]
    cases collect f xs s₁ <;> rfl

/-- What each step preserves is preserved by all of them. -/
theorem each_preserves {f : α → Storing Unit} {P : StoreState → Prop} {xs : List α}
    (hf : ∀ x ∈ xs, ∀ s s', P s → f x s = .ok () s' → P s') (hs : P s)
    (h : each f xs s = .ok () s') : P s' := by
  induction xs generalizing s with
  | nil =>
    obtain rfl := each_nil_ok_iff.mp h
    exact hs
  | cons x xs ih =>
    obtain ⟨s₁, hx, hxs⟩ := each_cons_ok_iff.mp h
    exact ih (fun y hy => hf y (List.mem_cons_of_mem _ hy)) (hf x List.mem_cons_self s s₁ hs hx) hxs

/-- The state after some work, however it went. -/
def after (x : Storing α) (s : StoreState) : StoreState :=
  match x s with
  | .ok _ s => s
  | .error _ s => s

theorem after_of_ok {x : Storing α} {a : α} (h : x s = .ok a s') : after x s = s' := by
  rw [after, h]

theorem after_of_error {x : Storing α} {e : Fault} (h : x s = .error e s') : after x s = s' := by
  rw [after, h]

/-- Whether some work goes well and its result passes a check. -/
def passes (check : α → StoreState → Bool) (x : Storing α) (s : StoreState) : Bool :=
  match x s with
  | .ok a s => check a s
  | .error _ _ => false

theorem exists_of_passes {check : α → StoreState → Bool} {x : Storing α}
    (h : passes check x s = true) : ∃ a s', x s = .ok a s' ∧ check a s' = true := by
  rw [passes] at h
  cases hx : x s with
  | ok a s' =>
    rw [hx] at h
    exact ⟨a, s', rfl, h⟩
  | error e s' =>
    rw [hx] at h
    cases h

theorem discard_apply (x : Storing α) (s : StoreState) : (discard x : Storing Unit) s = match x s with
    | .ok _ s => .ok () s
    | .error e s => .error e s := by
  simp only [discard, Functor.discard, Functor.mapConst, EStateM.map, Function.comp]
  cases x s <;> rfl

theorem discard_ok_iff {x : Storing α} :
    (discard x : Storing Unit) s = .ok () s' ↔ ∃ a, x s = .ok a s' := by
  rw [discard_apply]
  cases x s <;> simp

theorem after_discard (x : Storing α) (s : StoreState) : after (discard x) s = after x s := by
  rw [after, after, discard_apply]
  cases x s <;> rfl

/-- What holds before some work holds after it, however it went. -/
def Keeps (P : StoreState → Prop) (x : Storing α) : Prop := ∀ s, P s → P (after x s)

variable {P : StoreState → Prop}

theorem keeps_pure (a : α) : Keeps P (pure a : Storing α) := fun _ h => h

theorem after_bind_of {x : Storing α} {f : α → Storing β} {s : StoreState} (hx : P (after x s))
    (hf : ∀ a s₁, x s = .ok a s₁ → P s₁ → P (after (f a) s₁)) : P (after (x >>= f) s) := by
  rw [after, bind_apply]
  cases hstep : x s with
  | error e s₁ =>
    rw [after_of_error hstep] at hx
    exact hx
  | ok a s₁ =>
    rw [after_of_ok hstep] at hx
    exact hf a s₁ hstep hx

theorem Keeps.bind {x : Storing α} {f : α → Storing β} (hx : Keeps P x)
    (hf : ∀ s a s₁, x s = .ok a s₁ → P s₁ → P (after (f a) s₁)) : Keeps P (x >>= f) :=
  fun s hs => after_bind_of (hx s hs) (hf s)

theorem Keeps.each {f : α → Storing Unit} {xs : List α} (h : ∀ x ∈ xs, Keeps P (f x)) :
    Keeps P (each f xs) := by
  induction xs with
  | nil => exact keeps_pure ()
  | cons x xs ih =>
    refine (h x List.mem_cons_self).bind fun _ _ s₁ _ hs₁ => ?_
    exact ih (fun y hy => h y (List.mem_cons_of_mem _ hy)) s₁ hs₁

theorem Keeps.ite {x y : Storing α} (c : StoreState → Bool) (hx : Keeps P x) (hy : Keeps P y) :
    Keeps P fun s => if c s then x s else y s := by
  intro s hs
  cases hc : c s with
  | true =>
    have hstep : after (fun s => if c s then x s else y s) s = after x s := by simp [after, hc]
    rw [hstep]
    exact hx s hs
  | false =>
    have hstep : after (fun s => if c s then x s else y s) s = after y s := by simp [after, hc]
    rw [hstep]
    exact hy s hs

theorem after_orUndo_of {work : Storing α} {undo : Storing Unit} {s : StoreState} (hwork : P (after work s))
    (hundo : Keeps P undo) : P (after (work.orUndo undo) s) := by
  rw [after, orUndo]
  cases hstep : work s with
  | ok a s₁ =>
    rw [after_of_ok hstep] at hwork
    exact hwork
  | error e s₁ =>
    rw [after_of_error hstep] at hwork
    have hundone := hundo s₁ hwork
    rw [after] at hundone
    dsimp only
    cases hback : undo s₁ with
    | ok u s₂ =>
      rw [hback] at hundone
      exact hundone
    | error e' s₂ =>
      rw [hback] at hundone
      exact hundone

theorem Keeps.orUndo {work : Storing α} {undo : Storing Unit} (hwork : Keeps P work)
    (hundo : Keeps P undo) : Keeps P (work.orUndo undo) :=
  fun s hs => after_orUndo_of (hwork s hs) hundo

end Storing

/-- The cache is kept in memory, or its file is not reached through the place. -/
def SignatureCache.Avoids (c : SignatureCache) (place : List String) : Prop :=
  ∀ path ∈ c.path, Path.Avoids path place

theorem SignatureCache.Avoids.of_path {c c' : SignatureCache} {place : List String}
    (h : c.Avoids place) (hpath : c'.path = c.path) : c'.Avoids place := by
  rw [Avoids, hpath]
  exact h

theorem SignatureCache.Avoids.mono {c : SignatureCache} {place below : List String} (h : c.Avoids place)
    (hbelow : place <+: below) : c.Avoids below := fun path hpath => (h path hpath).mono hbelow

/-- The same cache file, and the same entry at a place. -/
structure StoreState.SameAt (place : List String) (s s' : StoreState) : Prop where
  path : s'.cache.path = s.cache.path
  tree : s'.tree.at? place = s.tree.at? place

theorem StoreState.SameAt.avoids {place : List String} {s s' : StoreState} (h : s.SameAt place s')
    (havoid : s.cache.Avoids place) : s'.cache.Avoids place :=
  havoid.of_path h.path

theorem StoreState.SameAt.refl (place : List String) (s : StoreState) : s.SameAt place s := ⟨rfl, rfl⟩

theorem StoreState.SameAt.trans {place : List String} {s s₁ s₂ : StoreState}
    (h : s.SameAt place s₁) (h' : s₁.SameAt place s₂) : s.SameAt place s₂ :=
  ⟨h'.path.trans h.path, h'.tree.trans h.tree⟩

namespace SignatureCache

variable {s s' : StoreState} {place : List String} {key value : String}

theorem toList_keyOf (schema artifact : String) :
    (keyOf schema artifact).toList = schema.toList ++ ':' :: artifact.toList := by
  simp [keyOf]

theorem isPrefix_keyOf (schema artifact : String) :
    (keyOf schema "").toList <+: (keyOf schema artifact).toList := by
  rw [toList_keyOf, toList_keyOf]
  exact ⟨artifact.toList, by simp⟩

/-- All that writing the cache can come to. -/
theorem flush_cases (c : SignatureCache) (t : FileTree) : c.path = none ∧ c.flush t = .ok t ∨
    ∃ path, c.path = some path ∧
      (c.flush t = .error (t.grown (Path.pieces (Path.parent path)) []) ∨
        ∃ made t', t.makeAlong (Path.pieces (Path.parent path)) [] = .ok made ∧
          made.writeText path c.text = .ok t' ∧ c.flush t = .ok t') := by
  cases hpath : c.path with
  | none => exact .inl ⟨rfl, by rw [flush, hpath]⟩
  | some path =>
    refine .inr ⟨path, rfl, ?_⟩
    cases hmake : t.makeAlong (Path.pieces (Path.parent path)) [] with
    | error left =>
      refine .inl ?_
      rw [FileTree.grown_of_error hmake, flush, hpath]
      dsimp only
      rw [hmake]
    | ok made =>
      cases hwrite : made.writeText path c.text with
      | error e =>
        refine .inl ?_
        rw [FileTree.grown_of_ok hmake, flush, hpath]
        dsimp only
        rw [hmake]
        dsimp only
        rw [hwrite]
      | ok t' =>
        refine .inr ⟨made, t', rfl, hwrite, ?_⟩
        rw [flush, hpath]
        dsimp only
        rw [hmake]
        dsimp only
        rw [hwrite]

/-- The tree after the cache was written, or after as much of that as could be done. -/
def flushed (c : SignatureCache) (t : FileTree) : FileTree :=
  match c.flush t with
  | .ok t' => t'
  | .error t' => t'

theorem flushed_of_ok {c : SignatureCache} {t t' : FileTree} (h : c.flush t = .ok t') :
    c.flushed t = t' := by
  rw [flushed, h]

theorem at?_flushed {c : SignatureCache} (t : FileTree) (havoid : c.Avoids place) :
    (c.flushed t).at? place = t.at? place := by
  rcases flush_cases c t with ⟨-, hflush⟩ | ⟨path, hpath, hflush | ⟨made, t', hmake, hwrite, hflush⟩⟩
  · rw [flushed, hflush]
  · rw [flushed, hflush]
    exact FileTree.at?_grown (havoid path hpath).parent
  · rw [flushed, hflush, FileTree.at?_writeText hwrite (havoid path hpath), ← FileTree.grown_of_ok hmake]
    exact FileTree.at?_grown (havoid path hpath).parent

theorem contentAt_flushed (c : SignatureCache) (t : FileTree)
    (hfile : ∀ path ∈ c.path, place ≠ Path.arrival (Path.pieces path) []) :
    (c.flushed t).contentAt place = t.contentAt place ∨
      (∃ path ∈ c.path, place ∈ Path.walk (Path.pieces path) []) ∧ t.contentAt place = none ∧
        (c.flushed t).contentAt place = some none := by
  have hway {path : String} (hpath : c.path = some path)
      (h : place ∈ Path.walk (Path.pieces (Path.parent path)) []) :
      ∃ path ∈ c.path, place ∈ Path.walk (Path.pieces path) [] :=
    ⟨path, hpath, Path.mem_walk_of_parent h⟩
  rcases flush_cases c t with ⟨-, hflush⟩ | ⟨path, hpath, hflush | ⟨made, t', hmake, hwrite, hflush⟩⟩
  · exact .inl (by rw [flushed, hflush])
  · rw [flushed, hflush]
    exact (FileTree.contentAt_grown t _ [] place).imp_right fun h => ⟨hway hpath h.1, h.2⟩
  · obtain ⟨slot, hslot, hfolder, rfl⟩ := FileTree.writeText_ok hwrite
    have hne : place ≠ slot := by
      rw [FileTree.slotOf?_eq_arrival hslot]
      exact hfile path hpath
    rw [flushed, hflush, FileTree.contentAt_put_of_ne (FileTree.isLeaf_file _) hfolder hne]
    exact (FileTree.contentAt_makeAlong hmake place).imp_right fun h => ⟨hway hpath h.1, h.2⟩

theorem kindAt_flushed (c : SignatureCache) {t : FileTree} (h : t.kindAt place = some true) :
    (c.flushed t).kindAt place = some true := by
  rcases flush_cases c t with ⟨-, hflush⟩ | ⟨path, -, hflush | ⟨made, t', hmake, hwrite, hflush⟩⟩
  · rw [flushed, hflush, h]
  · rw [flushed, hflush, FileTree.kindAt_grown _ _ (by simp [h]), h]
  · obtain ⟨slot, -, hfolder, rfl⟩ := FileTree.writeText_ok hwrite
    have hmade := FileTree.kindAt_makeAlong_mono hmake h
    have hne : place ≠ slot := by
      rintro rfl
      exact hfolder (FileTree.any_isFolder_iff.mpr hmade)
    rw [flushed, hflush, FileTree.kindAt_put_of_ne (FileTree.isLeaf_file _)
      (mt FileTree.any_isFolder_iff.mpr hfolder) hne, hmade]

theorem replace_ok {entries : Dict String} (h : replace entries s = .ok () s') :
    s'.cache = { s.cache with entries } ∧
      ({ s.cache with entries } : SignatureCache).flush s.tree = .ok s'.tree := by
  rw [replace] at h
  dsimp only at h
  split at h
  · next tree hflush =>
    obtain ⟨-, rfl⟩ := EStateM.Result.ok.inj h
    exact ⟨rfl, hflush⟩
  · cases h

open Storing (after after_of_ok)

theorem after_replace (entries : Dict String) (s : StoreState) : after (replace entries) s =
    ⟨({ s.cache with entries } : SignatureCache).flushed s.tree, { s.cache with entries }⟩ := by
  rw [after, replace, flushed]
  dsimp only
  cases ({ s.cache with entries } : SignatureCache).flush s.tree <;> rfl

theorem cache_after_replace (entries : Dict String) (s : StoreState) :
    (after (replace entries) s).cache = { s.cache with entries } := by
  rw [after_replace]

theorem sameAt_after_replace (havoid : s.cache.Avoids place) (entries : Dict String) :
    s.SameAt place (after (replace entries) s) := by
  rw [after_replace]
  exact ⟨rfl, at?_flushed s.tree (havoid.of_path rfl)⟩

theorem get?_put (h : put key value s = .ok () s') (name : String) :
    s'.cache.get? name = if name = key then some value else s.cache.get? name := by
  rw [put] at h
  split at h
  · next hsame =>
    obtain ⟨-, rfl⟩ := EStateM.Result.ok.inj h
    by_cases hn : name = key
    · rw [hn, hsame, if_pos rfl]
    · rw [if_neg hn]
  · rw [(replace_ok h).1]
    exact Dict.get?_insert _ _ _ _

theorem path_after_put (key value : String) (s : StoreState) :
    (after (put key value) s).cache.path = s.cache.path := by
  rw [after, put]
  split_ifs
  · rfl
  · show (after (replace _) s).cache.path = _
    rw [cache_after_replace]

theorem sameAt_after_put (havoid : s.cache.Avoids place) (key value : String) :
    s.SameAt place (after (put key value) s) := by
  rw [after, put]
  split_ifs
  · exact .refl place s
  · exact sameAt_after_replace havoid _

theorem sameAt_put (havoid : s.cache.Avoids place) (h : put key value s = .ok () s') :
    s.SameAt place s' := by
  rw [← after_of_ok h]
  exact sameAt_after_put havoid key value

theorem kindAt_after_put (key value : String) (h : s.tree.kindAt place = some true) :
    (after (put key value) s).tree.kindAt place = some true := by
  rw [after, put]
  split_ifs
  · exact h
  · show (after (replace _) s).tree.kindAt place = _
    rw [after_replace]
    exact kindAt_flushed _ h

theorem get?_after_put {name : String} (hne : name ≠ key) (value : String) (s : StoreState) :
    (after (put key value) s).cache.get? name = s.cache.get? name := by
  rw [after, put]
  split_ifs
  · rfl
  · show (after (replace _) s).cache.get? name = _
    rw [cache_after_replace, get?, Dict.get?_insert, if_neg hne]
    rfl

theorem get?_delete (h : delete key s = .ok () s') (name : String) :
    s'.cache.get? name = if name = key then none else s.cache.get? name := by
  rw [delete] at h
  split at h
  · rw [(replace_ok h).1]
    exact Dict.get?_erase _ _ _
  · next habsent =>
    obtain ⟨-, rfl⟩ := EStateM.Result.ok.inj h
    by_cases hn : name = key
    · rw [hn, if_pos rfl]
      simpa [Dict.contains, get?] using habsent
    · rw [if_neg hn]

theorem path_after_delete (key : String) (s : StoreState) :
    (after (delete key) s).cache.path = s.cache.path := by
  rw [after, delete]
  split_ifs
  · show (after (replace _) s).cache.path = _
    rw [cache_after_replace]
  · rfl

theorem sameAt_after_delete (havoid : s.cache.Avoids place) (key : String) :
    s.SameAt place (after (delete key) s) := by
  rw [after, delete]
  split_ifs
  · exact sameAt_after_replace havoid _
  · exact .refl place s

theorem sameAt_delete (havoid : s.cache.Avoids place) (h : delete key s = .ok () s') :
    s.SameAt place s' := by
  rw [← after_of_ok h]
  exact sameAt_after_delete havoid key

theorem kindAt_after_delete (key : String) (h : s.tree.kindAt place = some true) :
    (after (delete key) s).tree.kindAt place = some true := by
  rw [after, delete]
  split_ifs
  · show (after (replace _) s).tree.kindAt place = _
    rw [after_replace]
    exact kindAt_flushed _ h
  · exact h

theorem get?_after_delete (key name : String) (s : StoreState) : (after (delete key) s).cache.get? name =
    if name = key then none else s.cache.get? name := by
  rw [after, delete]
  split_ifs with hthere hname hname
  · show (after (replace _) s).cache.get? name = _
    rw [cache_after_replace, get?, Dict.get?_erase, if_pos hname]
  · show (after (replace _) s).cache.get? name = _
    rw [cache_after_replace, get?, Dict.get?_erase, if_neg hname]
    rfl
  · rw [hname]
    simpa [Dict.contains, get?] using hthere
  · rfl

end SignatureCache

end ClassSchema
