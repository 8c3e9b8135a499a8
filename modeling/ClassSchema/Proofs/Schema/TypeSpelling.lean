import ClassSchema.Proofs.Artifact.Directive
import ClassSchema.Proofs.Artifact.FileName
import ClassSchema.Proofs.Resolver.Spelling
import ClassSchema.Proofs.TypeRef

/-!
# Names inside type references

A name between wrappers is told from them, whatever name it is. So a name that was put in the place of another
by rebasing is the named type of the new reference, and the wrappers stay.
-/

namespace ClassSchema

open Artifact (isNameChar_of_isGraphName)

/-- The characters of names and of what stands around them in types. -/
def isSpellingChar (c : Char) : Bool := isNameChar c || c = '[' || c = ']' || c = '!'

/-- One GraphQL name, with brackets before it and brackets and marks after it. -/
def IsTypeSpelling (type : String) : Prop :=
  ∃ before name after, isGraphName name = true ∧ (∀ c ∈ before, c = '[' ∨ c = ']') ∧
    (∀ c ∈ after, c = '[' ∨ c = ']' ∨ c = '!') ∧ type.toList = before ++ name.toList ++ after

variable {opening closing name : List Char} {ref base type : String}

theorem isBlank_of_isSpellingChar {c : Char} (h : isSpellingChar c = true) : isBlank c = false := by
  simp only [isSpellingChar, Bool.or_eq_true, decide_eq_true_eq] at h
  rcases h with ((h | rfl) | rfl) | rfl
  · exact (isWordChar_of_isNameChar h).2
  all_goals rfl

theorem isSpellingChar_of_isGraphName (h : isGraphName base = true) :
    ∀ c ∈ base.toList, isSpellingChar c = true := by
  intro c hc
  simp [isSpellingChar, (isNameChar_of_isGraphName h).2 c hc]

theorem isSpellingChar_of_isTypeSpelling (h : IsTypeSpelling type) :
    type.toList ≠ [] ∧ ∀ c ∈ type.toList, isSpellingChar c = true := by
  obtain ⟨before, name, after, hname, hbefore, hafter, htype⟩ := h
  have hne := (isNameChar_of_isGraphName hname).1
  rw [htype]
  refine ⟨by simp [hne], ?_⟩
  rw [List.forall_mem_append, List.forall_mem_append]
  refine ⟨⟨fun c hc => ?_, isSpellingChar_of_isGraphName hname⟩, fun c hc => ?_⟩
  · rcases hbefore c hc with rfl | rfl <;> rfl
  · rcases hafter c hc with rfl | rfl | rfl <;> rfl

/-! ## The named type -/

theorem trimmedChars_of_forall {s : List Char} (h : ∀ c ∈ s, isBlank c = false) : trimmedChars s = s :=
  (surrounds_self s).trimmedChars_eq (fun c hc => h c (List.mem_of_mem_head? hc))
    fun c hc => h c (List.mem_of_mem_getLast? hc)

theorem isTypeCloser_iff {c : Char} : isTypeCloser c = true ↔ c = ']' ∨ c = '!' := by
  rw [isTypeCloser, Bool.or_eq_true, decide_eq_true_eq, decide_eq_true_eq]

theorem typeCore_wrapped (hopening : ∀ c ∈ opening, c = '[') (hclosing : ∀ c ∈ closing, isTypeCloser c = true)
    (hfirst : ∃ c ∈ name.head?, c ≠ '[') (hlast : ∃ c ∈ name.getLast?, isTypeCloser c = false) :
    typeCore (opening ++ name ++ closing) = name := by
  obtain ⟨c, hc, hbracket⟩ := hfirst
  obtain ⟨d, hd, hcloser⟩ := hlast
  have hopened : (opening ++ name ++ closing).dropWhile (· = '[') = name ++ closing := by
    rw [List.append_assoc, List.dropWhile_append_of_pos (by simpa using hopening)]
    obtain ⟨cs, rfl⟩ := List.head?_eq_some_iff.mp hc
    rw [List.cons_append, List.dropWhile_cons_of_neg (by simpa using hbracket)]
  have hclosed : (closing.reverse ++ name.reverse).dropWhile isTypeCloser = name.reverse := by
    rw [List.dropWhile_append_of_pos (by simpa using hclosing)]
    obtain ⟨ds, rfl⟩ := List.getLast?_eq_some_iff.mp hd
    rw [List.reverse_concat, List.dropWhile_cons_of_neg (by simp [hcloser])]
  rw [typeCore, hopened, dropLastWhile, List.reverse_append, hclosed, List.reverse_reverse]

/-- A GraphQL name between wrappers is the named type of the reference. -/
theorem baseType_wrapped (hopening : ∀ c ∈ opening, c = '[')
    (hclosing : ∀ c ∈ closing, isTypeCloser c = true) (hbase : isGraphName base = true)
    (href : ref.toList = opening ++ base.toList ++ closing) : baseType ref = base := by
  have hspelled : IsTypeSpelling ref :=
    ⟨opening, base, closing, hbase, fun c hc => .inl (hopening c hc),
      fun c hc => .inr (isTypeCloser_iff.mp (hclosing c hc)), href⟩
  have hplain : ∀ c ∈ ref.toList, isBlank c = false := fun c hc =>
    isBlank_of_isSpellingChar ((isSpellingChar_of_isTypeSpelling hspelled).2 c hc)
  obtain ⟨hne, hchars⟩ := isNameChar_of_isGraphName hbase
  have hother {c d : Char} (hc : isNameChar c = true) (hd : isNameChar d = false) : c ≠ d := by
    rintro rfl
    rw [hc] at hd
    cases hd
  have hfirst : ∃ c ∈ base.toList.head?, c ≠ '[' :=
    ⟨_, List.head?_eq_some_head hne, hother (hchars _ (List.head_mem hne)) (by decide)⟩
  have hlast : ∃ c ∈ base.toList.getLast?, isTypeCloser c = false := by
    have hc := hchars _ (List.getLast_mem hne)
    refine ⟨_, List.getLast?_eq_some_getLast hne, ?_⟩
    rw [← Bool.not_eq_true, isTypeCloser_iff, not_or]
    exact ⟨hother hc (by decide), hother hc (by decide)⟩
  rw [baseType, trimmedChars_of_forall hplain, href, typeCore_wrapped hopening hclosing hfirst hlast,
    String.ofList_toList]

/-- A reference with a named type is that type between wrappers. To rebase it is to put another text between
the same wrappers, from which a name is told again, and the type itself gives the trimmed reference. -/
theorem rebase_keeps_wrappers (h : baseType ref ≠ "") :
    ∃ opening closing : List Char, (∀ c ∈ opening, c = '[') ∧ (∀ c ∈ closing, isTypeCloser c = true) ∧
      (trimmed ref).toList = opening ++ (baseType ref).toList ++ closing ∧
      (∀ base, (rebase ref base).toList = opening ++ base.toList ++ closing) ∧
      (∀ base, isGraphName base = true → baseType (rebase ref base) = base) ∧
      rebase ref (baseType ref) = trimmed ref := by
  have hopening := typeOpening_brackets (trimmedChars ref.toList)
  have hclosing := typeClosing_closers (trimmedChars ref.toList)
  refine ⟨_, _, hopening, hclosing, ?_, toList_rebase h, ?_, ?_⟩
  · rw [trimmed, String.toList_ofList]
    exact typeParts_baseType ref
  · intro base hbase
    exact baseType_wrapped hopening hclosing hbase (toList_rebase h base)
  · rw [← String.toList_inj, toList_rebase h, trimmed, String.toList_ofList]
    exact (typeParts_baseType ref).symm

/-- The named type has brackets and marks of its own inside, and begins as it ends. -/
theorem rebase_keeps_wrappers_nested : baseType " [[a[a]!a]!]\t" ≠ "" ∧
    baseType " [[a[a]!a]!]\t" = "a[a]!a" ∧ baseType (rebase " [[a[a]!a]!]\t" "Page") = "Page" ∧
      rebase " [[a[a]!a]!]\t" "a[a]!a" = "[[a[a]!a]!]" := by
  have hbase : baseType " [[a[a]!a]!]\t" = "a[a]!a" := by decide +kernel
  have hne : baseType " [[a[a]!a]!]\t" ≠ "" := by
    rw [hbase]
    decide
  obtain ⟨opening, closing, -, -, -, -, hname, hself⟩ := rebase_keeps_wrappers hne
  rw [hbase] at hself
  exact ⟨hne, hbase, hname "Page" (by decide), hself.trans (by decide +kernel)⟩

end ClassSchema
