import ClassSchema.TypeRef
import Mathlib.Data.List.TakeWhile

/-!
# Wrappers of type references

A trimmed reference is opening brackets, then the named type, then closing brackets and marks. To rebase it
is to put another name between the same wrappers.
-/

namespace ClassSchema

/-- Two references wrap a name each, and the wrappers are the same. -/
def SameWrappers (ref base ref' base' : String) : Prop :=
  ∃ opening closing : List Char, (∀ c ∈ opening, c = '[') ∧ (∀ c ∈ closing, isTypeCloser c = true) ∧
    trimmedChars ref.toList = opening ++ base.toList ++ closing ∧
      ref'.toList = opening ++ base'.toList ++ closing

theorem typeParts_eq (s : List Char) : typeOpening s ++ typeCore s ++ typeClosing s = s := by
  have hcore : typeCore s ++ typeClosing s = s.dropWhile (· = '[') := by
    rw [typeCore, typeClosing, dropLastWhile, ← List.reverse_append, List.takeWhile_append_dropWhile,
      List.reverse_reverse]
  rw [List.append_assoc, hcore, typeOpening, List.takeWhile_append_dropWhile]

theorem typeOpening_brackets (s : List Char) : ∀ c ∈ typeOpening s, c = '[' := by
  intro c hc
  have hbracket := List.mem_takeWhile_imp hc
  simpa using hbracket

theorem typeClosing_closers (s : List Char) : ∀ c ∈ typeClosing s, isTypeCloser c = true := by
  intro c hc
  exact List.mem_takeWhile_imp (List.mem_reverse.mp hc)

theorem head?_typeCore (s : List Char) : (typeCore s).head? ≠ some '[' := by
  intro hhead
  have hdrop : typeCore s ++ typeClosing s = s.dropWhile (· = '[') := by
    have hparts := typeParts_eq s
    rw [List.append_assoc, typeOpening] at hparts
    have hsplit := List.takeWhile_append_dropWhile (p := (· = '[')) (l := s)
    exact List.append_cancel_left (hparts.trans hsplit.symm)
  have hfirst : (s.dropWhile (· = '[')).head? = some '[' := by
    rw [← hdrop, List.head?_append, hhead]
    rfl
  have hkept := List.head?_dropWhile_not (· = '[') s
  rw [hfirst] at hkept
  simp at hkept

theorem findPart_of_brackets {opening part : List Char} (rest : List Char)
    (hopening : ∀ c ∈ opening, c = '[') (hpart : part.head? ≠ some '[') (hne : part ≠ []) :
    findPart part (opening ++ part ++ rest) = some opening.length := by
  induction opening with
  | nil =>
    cases part with
    | nil => exact absurd rfl hne
    | cons c part => simp [findPart]
  | cons c opening ih =>
    have hbracket : c = '[' := hopening c List.mem_cons_self
    have hnot : part.isPrefixOf (c :: (opening ++ part ++ rest)) = false := by
      cases part with
      | nil => exact absurd rfl hne
      | cons d part =>
        have hd : d ≠ '[' := by simpa using hpart
        simp [List.isPrefixOf, hbracket, hd]
    have hrest := ih fun c hc => hopening c (List.mem_cons_of_mem _ hc)
    rw [List.cons_append, List.cons_append, findPart, if_neg (Bool.eq_false_iff.mp hnot), hrest]
    rfl

private theorem take_drop_between (opening core closing : List Char) :
    (opening ++ core ++ closing).take opening.length = opening ∧
      (opening ++ core ++ closing).drop (opening.length + core.length) = closing := by
  constructor
  · rw [List.append_assoc, List.take_left]
  · rw [← List.length_append, List.drop_left]

theorem toList_rebase {ref : String} (h : baseType ref ≠ "") (base : String) :
    (rebase ref base).toList = typeOpening (trimmedChars ref.toList) ++ base.toList ++
      typeClosing (trimmedChars ref.toList) := by
  have hcore : typeCore (trimmedChars ref.toList) ≠ [] := by
    intro hnil
    rw [baseType, hnil] at h
    exact h rfl
  have hparts := typeParts_eq (trimmedChars ref.toList)
  have hfound := findPart_of_brackets (typeClosing (trimmedChars ref.toList))
    (typeOpening_brackets (trimmedChars ref.toList)) (head?_typeCore _) hcore
  have hbetween := take_drop_between (typeOpening (trimmedChars ref.toList))
    (typeCore (trimmedChars ref.toList)) (typeClosing (trimmedChars ref.toList))
  rw [hparts] at hfound hbetween
  rw [rebase, hfound]
  dsimp only
  rw [String.toList_ofList, hbetween.1, hbetween.2]

theorem typeParts_baseType (ref : String) : trimmedChars ref.toList =
    typeOpening (trimmedChars ref.toList) ++ (baseType ref).toList ++
      typeClosing (trimmedChars ref.toList) := by
  rw [baseType, String.toList_ofList, typeParts_eq]

theorem sameWrappers_rebase {ref : String} (h : baseType ref ≠ "") (base : String) :
    SameWrappers ref (baseType ref) (rebase ref base) base :=
  ⟨_, _, typeOpening_brackets _, typeClosing_closers _, typeParts_baseType ref, toList_rebase h base⟩

end ClassSchema
