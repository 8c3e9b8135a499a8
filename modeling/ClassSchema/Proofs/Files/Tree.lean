import ClassSchema.Files.Tree
import ClassSchema.Proofs.Dict

/-!
# Changes of a file tree

What stands where after something was put at a place or taken away from it.
-/

namespace ClassSchema.FileTree

theorem at?_append (t : FileTree) (place below : List String) :
    t.at? (place ++ below) = (t.at? place).bind fun u => u.at? below := by
  induction place generalizing t with
  | nil => simp [at?]
  | cons name place ih =>
    cases t with
    | file s => rfl
    | folder es =>
      rw [List.cons_append, at?, at?]
      cases es.get? name with
      | none => rfl
      | some u => exact ih u

theorem at?_singleton (es : Dict FileTree) (name : String) :
    (folder es).at? [name] = es.get? name := by
  rw [at?]
  cases es.get? name <;> simp [at?]

theorem at?_put_append {t : FileTree} {place : List String} (h : (t.at? place).isSome)
    (below : List String) (new : FileTree) :
    (t.put place new).at? (place ++ below) = new.at? below := by
  fun_induction put t place new with
  | case1 => rfl
  | case2 s name names => cases h
  | case3 es name => simp [at?]
  | case4 es name names new hne u hu ih =>
    rw [at?, hu] at h
    rw [List.cons_append, at?, Dict.get?_insert, if_pos rfl, Option.bind_some, ih h]
  | case5 es name names new hne hn =>
    rw [at?, hn] at h
    cases h

theorem put_put (t : FileTree) (place : List String) (old new : FileTree) :
    (t.put place old).put place new = t.put place new := by
  fun_induction put t place old with
  | case1 => rfl
  | case2 s name names => rfl
  | case3 es name => simp [put, Dict.insert_insert]
  | case4 es name names old hne u hu ih =>
    rw [put, put, Dict.get?_insert, if_pos rfl, hu]
    · simp [ih, Dict.insert_insert]
    · exact hne
    · exact hne
  | case5 es name names old hne hn => rfl

theorem put_append_singleton {t : FileTree} {place : List String} {es : Dict FileTree}
    (h : t.at? place = some (.folder es)) (name : String) (new : FileTree) :
    t.put (place ++ [name]) new = t.put place (.folder (es.insert name new)) := by
  induction place generalizing t with
  | nil =>
    obtain rfl : t = .folder es := Option.some.inj h
    rfl
  | cons first place ih =>
    cases t with
    | file s => cases h
    | folder fs =>
      obtain ⟨u, hu, hbelow⟩ := Option.bind_eq_some_iff.mp h
      rw [List.cons_append, put, hu]
      · dsimp only
        rw [ih hbelow]
        cases place with
        | nil => rfl
        | cons second place => rw [put, hu]; simp
      · simp

theorem remove_append_singleton {t : FileTree} {place : List String} {es : Dict FileTree}
    (h : t.at? place = some (.folder es)) (name : String) :
    t.remove (place ++ [name]) = t.put place (.folder (es.erase name)) := by
  induction place generalizing t with
  | nil =>
    obtain rfl : t = .folder es := Option.some.inj h
    rfl
  | cons first place ih =>
    cases t with
    | file s => cases h
    | folder fs =>
      obtain ⟨u, hu, hbelow⟩ := Option.bind_eq_some_iff.mp h
      rw [List.cons_append, remove, hu]
      · dsimp only
        rw [ih hbelow]
        cases place with
        | nil => rfl
        | cons second place => rw [put, hu]; simp
      · simp

theorem at?_remove_append {t : FileTree} {place : List String} {es : Dict FileTree}
    (h : t.at? place = some (.folder es)) (name : String) :
    (t.remove (place ++ [name])).at? place = some (.folder (es.erase name)) := by
  have hput := at?_put_append (by rw [h]; rfl) [] (.folder (es.erase name))
  rw [remove_append_singleton h name]
  rwa [List.append_nil] at hput

theorem at?_remove_self {t : FileTree} {place : List String} (h : place ≠ []) :
    (t.remove place).at? place = none := by
  fun_induction remove t place with
  | case1 => exact absurd rfl h
  | case2 => rfl
  | case3 es name => rw [at?, Dict.get?_erase, if_pos rfl, Option.bind_none]
  | case4 es name names hne u hu ih => rw [at?, Dict.get?_insert, if_pos rfl, Option.bind_some, ih hne]
  | case5 es name names hne hnone => rw [at?, hnone, Option.bind_none]

theorem at?_insert_of_kept {es : Dict FileTree} {name : String} {u new : FileTree} {other : List String}
    (hu : es.get? name = some u) (hother : other ≠ [])
    (hkept : ∀ below, other = name :: below → new.at? below = u.at? below) :
    (folder (es.insert name new)).at? other = (folder es).at? other := by
  cases other with
  | nil => exact absurd rfl hother
  | cons m ms =>
    rw [at?, at?, Dict.get?_insert]
    by_cases hm : m = name
    · subst hm
      rw [if_pos rfl, hu, Option.bind_some, Option.bind_some]
      exact hkept ms rfl
    · rw [if_neg hm]

theorem at?_remove_of_apart {t : FileTree} {place other : List String} (h : ¬ place <+: other)
    (h' : ¬ other <+: place) : (t.remove place).at? other = t.at? other := by
  fun_induction remove t place generalizing other with
  | case1 => rfl
  | case2 => rfl
  | case3 es name =>
    cases other with
    | nil => exact absurd List.nil_prefix h'
    | cons m ms =>
      have hm : m ≠ name := by
        rintro rfl
        exact h (List.cons_prefix_cons.mpr ⟨rfl, List.nil_prefix⟩)
      rw [at?, at?, Dict.get?_erase, if_neg hm]
  | case4 es name names hne u hu ih =>
    refine at?_insert_of_kept hu (fun hnil => h' (hnil ▸ List.nil_prefix)) ?_
    rintro below rfl
    exact ih (fun hp => h (List.cons_prefix_cons.mpr ⟨rfl, hp⟩))
      fun hp => h' (List.cons_prefix_cons.mpr ⟨rfl, hp⟩)
  | case5 => rfl

/-- What stands apart from a place where something is put is as before. -/
theorem at?_put_of_apart {t new : FileTree} {place other : List String} (h : ¬ place <+: other)
    (h' : ¬ other <+: place) : (t.put place new).at? other = t.at? other := by
  fun_induction put t place new generalizing other with
  | case1 => exact absurd List.nil_prefix h
  | case2 => rfl
  | case3 es name new =>
    cases other with
    | nil => exact absurd List.nil_prefix h'
    | cons m ms =>
      have hm : m ≠ name := by
        rintro rfl
        exact h (List.cons_prefix_cons.mpr ⟨rfl, List.nil_prefix⟩)
      rw [at?, at?, Dict.get?_insert, if_neg hm]
  | case4 es name names new hne u hu ih =>
    refine at?_insert_of_kept hu (fun hnil => h' (hnil ▸ List.nil_prefix)) ?_
    rintro below rfl
    exact ih (fun hp => h (List.cons_prefix_cons.mpr ⟨rfl, hp⟩))
      fun hp => h' (List.cons_prefix_cons.mpr ⟨rfl, hp⟩)
  | case5 => rfl

/-- A file, or a folder without entries. -/
def IsLeaf (t : FileTree) : Prop := ∀ place ≠ [], t.at? place = none

theorem isLeaf_file (s : String) : (file s).IsLeaf := by
  intro place h
  cases place with
  | nil => exact absurd rfl h
  | cons name place => rfl

theorem isLeaf_emptyFolder : emptyFolder.IsLeaf := by
  intro place h
  cases place with
  | nil => exact absurd rfl h
  | cons name place => rfl

private theorem at?_of_not_folder {t : FileTree} (h : ¬ t.isFolder = true) {place : List String}
    (hp : place ≠ []) : t.at? place = none := by
  cases t with
  | file s => exact isLeaf_file s place hp
  | folder es => exact absurd rfl h

variable {t new : FileTree} {place other : List String}

theorem at?_put_of_not_below (hleaf : new.IsLeaf) (hfolder : ¬ (t.at? place).any isFolder = true)
    (h : ¬ other <+: place) : (t.put place new).at? other = t.at? other := by
  fun_induction put t place new generalizing other with
  | case1 t new =>
    have hother : other ≠ [] := by
      rintro rfl
      exact h List.nil_prefix
    rw [hleaf other hother, at?_of_not_folder hfolder hother]
  | case2 s name names => rfl
  | case3 es name new =>
    cases other with
    | nil => exact absurd List.nil_prefix h
    | cons m ms =>
      rw [at?, at?, Dict.get?_insert]
      by_cases hm : m = name
      · subst hm
        have hms : ms ≠ [] := by
          rintro rfl
          exact h List.prefix_rfl
        rw [at?_singleton] at hfolder
        rw [if_pos rfl, Option.bind_some, hleaf ms hms]
        cases hu : es.get? m with
        | none => rfl
        | some u =>
          rw [hu] at hfolder
          exact (at?_of_not_folder hfolder hms).symm
      · rw [if_neg hm]
  | case4 es name names new hne u hu ih =>
    rw [at?, hu] at hfolder
    refine at?_insert_of_kept hu (fun hnil => h (hnil ▸ List.nil_prefix)) ?_
    rintro below rfl
    exact ih hleaf hfolder fun hp => h (List.cons_prefix_cons.mpr ⟨rfl, hp⟩)
  | case5 es name names new hne hn => rfl

end ClassSchema.FileTree
