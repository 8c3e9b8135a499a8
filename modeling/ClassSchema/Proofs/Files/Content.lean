import ClassSchema.Proofs.Files.Tree

/-!
# What a tree holds

Two trees hold the same if they have the same folders and files, and the same texts in the files. What is
put at a place changes nothing apart from that place and what is below it.
-/

namespace ClassSchema.FileTree

/-- Nothing, or a folder, or a file with its text. -/
def contentAt (t : FileTree) (place : List String) : Option (Option String) := (t.at? place).map text?

variable {t u new : FileTree} {place other : List String} {es : Dict FileTree}

theorem contentAt_of_file {text : String} (h : t.at? place = some (.file text)) :
    t.contentAt place = some (some text) := by
  rw [contentAt, h]
  rfl

theorem contentAt_of_folder (h : t.at? place = some (.folder es)) :
    t.contentAt place = some none := by
  rw [contentAt, h]
  rfl

theorem contentAt_eq_none_iff : t.contentAt place = none ↔ t.at? place = none :=
  Option.map_eq_none_iff

theorem contentAt_eq_file_iff {text : String} :
    t.contentAt place = some (some text) ↔ t.at? place = some (.file text) := by
  refine ⟨fun h => ?_, contentAt_of_file⟩
  obtain ⟨u, hu, htext⟩ := Option.map_eq_some_iff.mp h
  cases u with
  | file s => rw [hu, show s = text from Option.some.inj htext]
  | folder es => cases htext

theorem cases_below (place other : List String) :
    (¬ place <+: other ∨ other = place) ∨ ∃ name below, other = place ++ name :: below := by
  by_cases hother : place <+: other
  · obtain ⟨rest, rfl⟩ := hother
    cases rest with
    | nil => exact .inl (.inr (List.append_nil place))
    | cons name below => exact .inr ⟨name, below, rfl⟩
  · exact .inl (.inl hother)

theorem contentAt_cons (name : String) (names : List String) :
    (folder es).contentAt (name :: names) = (es.get? name).bind (·.contentAt names) := by
  rw [contentAt, at?]
  cases es.get? name <;> rfl

theorem contentAt_insert_of_kept {name : String} (hu : es.get? name = some u)
    (hkept : ∀ below, other = name :: below → new.contentAt below = u.contentAt below) :
    (folder (es.insert name new)).contentAt other = (folder es).contentAt other := by
  cases other with
  | nil => rfl
  | cons m ms =>
    rw [contentAt_cons, contentAt_cons, Dict.get?_insert]
    by_cases hm : m = name
    · subst hm
      rw [if_pos rfl, hu, Option.bind_some, Option.bind_some]
      exact hkept ms rfl
    · rw [if_neg hm]

/-- Apart from a place and what is below it, nothing changes when something is put there. -/
theorem contentAt_put_of_not_below (h : ¬ place <+: other) :
    (t.put place new).contentAt other = t.contentAt other := by
  fun_induction put t place new generalizing other with
  | case1 t new => exact absurd List.nil_prefix h
  | case2 s name names => rfl
  | case3 es name new =>
    cases other with
    | nil => rfl
    | cons m ms =>
      have hm : m ≠ name := by
        rintro rfl
        exact h (List.cons_prefix_cons.mpr ⟨rfl, List.nil_prefix⟩)
      rw [contentAt_cons, contentAt_cons, Dict.get?_insert, if_neg hm]
  | case4 es name names new hne u hu ih =>
    refine contentAt_insert_of_kept hu ?_
    rintro below rfl
    exact ih fun hp => h (List.cons_prefix_cons.mpr ⟨rfl, hp⟩)
  | case5 es name names new hne hn => rfl

theorem contentAt_put_of_ne (hleaf : new.IsLeaf) (hfolder : ¬ (t.at? place).any isFolder = true)
    (hne : other ≠ place) : (t.put place new).contentAt other = t.contentAt other := by
  by_cases hbelow : place <+: other
  · have hprefix : ¬ other <+: place := fun h =>
      hne (List.IsPrefix.eq_of_length_le h hbelow.length_le)
    rw [contentAt, contentAt, at?_put_of_not_below hleaf hfolder hprefix]
  · exact contentAt_put_of_not_below hbelow

/-- Apart from a place and what is below it, nothing changes when it is taken away. -/
theorem contentAt_remove_of_not_below (h : ¬ place <+: other) :
    (t.remove place).contentAt other = t.contentAt other := by
  fun_induction remove t place generalizing other with
  | case1 t => rfl
  | case2 s name names => rfl
  | case3 es name =>
    cases other with
    | nil => rfl
    | cons m ms =>
      have hm : m ≠ name := by
        rintro rfl
        exact h (List.cons_prefix_cons.mpr ⟨rfl, List.nil_prefix⟩)
      rw [contentAt_cons, contentAt_cons, Dict.get?_erase, if_neg hm]
  | case4 es name names hne u hu ih =>
    refine contentAt_insert_of_kept hu ?_
    rintro below rfl
    exact ih fun hp => h (List.cons_prefix_cons.mpr ⟨rfl, hp⟩)
  | case5 es name names hne hn => rfl

end ClassSchema.FileTree
