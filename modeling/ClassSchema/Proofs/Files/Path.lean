import ClassSchema.Files.Path
import Mathlib.Data.List.Basic

/-!
# Pieces of paths

Texts without slashes come back as the pieces of the path they are joined to.
-/

namespace ClassSchema.Path

theorem splitAt_ne_nil (sep : Char) (s : List Char) : splitAt sep s ≠ [] := by
  cases s with
  | nil => simp [splitAt]
  | cons c s =>
    rw [splitAt]
    split
    · simp
    · split <;> simp

theorem splitAt_of_not_mem {sep : Char} {s : List Char} (h : sep ∉ s) : splitAt sep s = [s] := by
  induction s with
  | nil => rfl
  | cons c s ih =>
    obtain ⟨hc, hs⟩ : sep ≠ c ∧ sep ∉ s := by simpa using h
    rw [splitAt, if_neg (Ne.symm hc), ih hs]

theorem splitAt_append (sep : Char) (s rest : List Char) :
    splitAt sep (s ++ sep :: rest) = splitAt sep s ++ splitAt sep rest := by
  induction s with
  | nil => simp [splitAt]
  | cons c s ih =>
    rw [List.cons_append, splitAt, splitAt, ih]
    split
    · rfl
    · cases hs : splitAt sep s with
      | nil => exact absurd hs (splitAt_ne_nil sep s)
      | cons first parts => rfl

theorem not_mem_of_mem_splitAt {sep : Char} {s part : List Char} (h : part ∈ splitAt sep s) :
    sep ∉ part := by
  induction s generalizing part with
  | nil =>
    rw [splitAt, List.mem_singleton] at h
    rw [h]
    exact List.not_mem_nil
  | cons c s ih =>
    rw [splitAt] at h
    split at h
    · rcases List.mem_cons.mp h with rfl | h
      · exact List.not_mem_nil
      · exact ih h
    · next hc =>
      split at h
      · next hs => exact absurd hs (splitAt_ne_nil sep s)
      · next first parts hs =>
        rcases List.mem_cons.mp h with rfl | h
        · have hfirst : sep ∉ first := ih (by rw [hs]; exact List.mem_cons_self)
          simpa [Ne.symm hc] using hfirst
        · exact ih (by rw [hs]; exact List.mem_cons_of_mem _ h)

theorem not_mem_of_mem_pieces {path piece : String} (h : piece ∈ pieces path) :
    '/' ∉ piece.toList := by
  obtain ⟨part, hpart, rfl⟩ := List.mem_map.mp h
  rw [String.toList_ofList]
  exact not_mem_of_mem_splitAt hpart

theorem pieces_of_not_mem {name : String} (h : '/' ∉ name.toList) : pieces name = [name] := by
  simp [pieces, splitAt_of_not_mem h]

theorem pieces_append (path rest : String) :
    pieces (path ++ "/" ++ rest) = pieces path ++ pieces rest := by
  have hchars : (path ++ "/" ++ rest).toList = path.toList ++ '/' :: rest.toList := by simp
  rw [pieces, hchars, splitAt_append, List.map_append, pieces, pieces]

theorem pieces_intercalate {parts : List String} (hne : parts ≠ [])
    (h : ∀ part ∈ parts, '/' ∉ part.toList) : pieces (String.intercalate "/" parts) = parts := by
  induction parts with
  | nil => exact absurd rfl hne
  | cons part parts ih =>
    have hpart := h part List.mem_cons_self
    cases parts with
    | nil => rw [String.intercalate_singleton, pieces_of_not_mem hpart]
    | cons next parts =>
      rw [String.intercalate_cons_cons, pieces_append, pieces_of_not_mem hpart,
        ih (by simp) fun p hp => h p (List.mem_cons_of_mem _ hp), List.singleton_append]

theorem exists_splitAt_concat (sep : Char) (s : List Char) : ∃ front last,
    splitAt sep s = front ++ [last] ∧
      ∀ ending, sep ∉ ending → splitAt sep (s ++ ending) = front ++ [last ++ ending] := by
  induction s with
  | nil => exact ⟨[], [], rfl, fun ending h => splitAt_of_not_mem h⟩
  | cons c s ih =>
    obtain ⟨front, last, hs, hmore⟩ := ih
    by_cases hc : c = sep
    · refine ⟨[] :: front, last, ?_, fun ending h => ?_⟩
      · rw [splitAt, if_pos hc, hs, List.cons_append]
      · rw [List.cons_append, splitAt, if_pos hc, hmore ending h, List.cons_append]
    · cases front with
      | nil =>
        refine ⟨[], c :: last, ?_, fun ending h => ?_⟩
        · rw [splitAt, if_neg hc, hs]
          rfl
        · rw [List.cons_append, splitAt, if_neg hc, hmore ending h]
          rfl
      | cons first front =>
        refine ⟨(c :: first) :: front, last, ?_, fun ending h => ?_⟩
        · rw [splitAt, if_neg hc, hs]
          rfl
        · rw [List.cons_append, splitAt, if_neg hc, hmore ending h]
          rfl

theorem exists_pieces_concat (path : String) : ∃ front last, pieces path = front ++ [last] ∧
    ∀ ending : String, '/' ∉ ending.toList → pieces (path ++ ending) = front ++ [last ++ ending] := by
  obtain ⟨front, last, hpath, hmore⟩ := exists_splitAt_concat '/' path.toList
  refine ⟨front.map String.ofList, String.ofList last, ?_, fun ending h => ?_⟩
  · rw [pieces, hpath, List.map_append, List.map_singleton]
  · rw [pieces, String.toList_append, hmore ending.toList h, List.map_append, List.map_singleton,
      String.ofList_append, String.ofList_toList]

theorem length_le_of_mem_splitAt {sep : Char} {s part : List Char} (h : part ∈ splitAt sep s) :
    part.length ≤ s.length := by
  induction s generalizing part with
  | nil =>
    rw [splitAt, List.mem_singleton] at h
    exact Nat.le_of_eq (congrArg List.length h)
  | cons c s ih =>
    rw [splitAt] at h
    split at h
    · rcases List.mem_cons.mp h with rfl | h
      · exact Nat.zero_le _
      · exact Nat.le_succ_of_le (ih h)
    · split at h
      · next hs => exact absurd hs (splitAt_ne_nil sep s)
      · next first parts hs =>
        rcases List.mem_cons.mp h with rfl | h
        · exact Nat.succ_le_succ (ih (by rw [hs]; exact List.mem_cons_self))
        · exact Nat.le_succ_of_le (ih (by rw [hs]; exact List.mem_cons_of_mem _ h))

theorem length_le_of_mem_pieces {path piece : String} (h : piece ∈ pieces path) :
    piece.length ≤ path.length := by
  obtain ⟨part, hpart, rfl⟩ := List.mem_map.mp h
  rw [String.length_ofList, ← String.length_toList]
  exact length_le_of_mem_splitAt hpart

theorem pieces_parent (path : String) :
    pieces (parent path) = [""] ∨ pieces (parent path) <+: pieces path := by
  have hsuffix : (backwards path).drop 1 <:+ (pieces path).reverse :=
    (List.drop_suffix 1 _).trans (List.dropWhile_suffix _)
  have hstart : ((backwards path).drop 1).reverse <+: pieces path := by
    have h := List.reverse_prefix.mpr hsuffix
    rwa [List.reverse_reverse] at h
  by_cases hnil : ((backwards path).drop 1).reverse = []
  · left
    rw [parent, hnil, String.intercalate_nil]
    rfl
  · right
    rw [parent, pieces_intercalate hnil fun part hp => not_mem_of_mem_pieces (hstart.subset hp)]
    exact hstart

theorem pieces_parent_of_name {path name : String} {parts : List String}
    (h : pieces path = parts ++ [name]) (hname : ¬ (name = "" ∨ name = ".")) :
    pieces (parent path) = if parts = [] then [""] else parts := by
  have hback : backwards path = name :: parts.reverse := by
    rw [backwards, h, List.reverse_append, List.reverse_singleton, List.singleton_append,
      List.dropWhile_cons_of_neg (by simpa using hname)]
  have hslash : ∀ part ∈ parts, '/' ∉ part.toList := by
    intro part hp
    have hmem : part ∈ pieces path := by
      rw [h]
      exact List.mem_append_left _ hp
    exact not_mem_of_mem_pieces hmem
  rw [parent, hback, List.drop_one, List.tail_cons, List.reverse_reverse]
  split
  · next hnil =>
    rw [hnil, String.intercalate_nil]
    rfl
  · next hne => exact pieces_intercalate hne hslash

theorem unslashed_of_pieces {path name : String} {parts : List String} (h : pieces path = parts ++ [name])
    (hname : name ≠ "") : unslashed path = parts ++ [name] := by
  rw [unslashed, h, List.reverse_append, List.reverse_singleton, List.singleton_append,
    List.dropWhile_cons_of_neg (by simpa using hname), List.reverse_cons, List.reverse_reverse]

theorem fileName?_of_plain {name : String} (h : isPlainName name = true) : fileName? name = some name := by
  simp only [isPlainName, Bool.and_eq_true, decide_eq_true_eq, Bool.not_eq_true', List.contains_eq_mem,
    decide_eq_false_iff_not] at h
  obtain ⟨⟨⟨hne, hhere⟩, hup⟩, hslash⟩ := h
  have hroot : name ≠ "/" := by
    rintro rfl
    exact hslash (by decide)
  have hcomponents : components name = [name] := by
    rw [components, pieces_of_not_mem hslash]
    simp [hne]
  rw [fileName?, hcomponents]
  simp [hup, hroot, hhere]

end ClassSchema.Path
