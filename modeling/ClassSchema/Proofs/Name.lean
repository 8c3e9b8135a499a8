import ClassSchema.Name
import Mathlib

/-!
# Plurals and case

Which names share a plural, and which plurals share a camel case. A plural ends in a small letter, so it is
never shouted, and camel case tells as many names apart as Pascal case does.
-/

namespace ClassSchema

variable {s t stem : String}

/-! ## Plurals -/

/-- A `y` stays in the plural after a vowel. -/
def endsInVowel (s : String) : Bool := ["a", "e", "o", "u"].any (endsIn s.toList ·)

/-- Names that take an `e` before the `s` of their plural. -/
def hisses (s : String) : Bool := ["s", "x", "ch", "sh"].any (endsIn s.toList ·)

/-- The names differ by a silent `e`: `Category` and `Categorie`, `Box` and `Boxe`. -/
def SilentE (s t : String) : Prop :=
  (∃ stem, endsInVowel stem = false ∧ s = stem ++ "y" ∧ t = stem ++ "ie") ∨
    hisses s = true ∧ t = s ++ "e"

theorem append_split (s a b ending : String) (h : a ++ b = ending) :
    s ++ ending = s ++ a ++ b := by
  rw [← h, String.append_assoc]

theorem endsIn_iff {l : List Char} {ending : String} :
    endsIn l ending = true ↔ ending.toList <:+ l := by
  rw [endsIn, decide_eq_true_eq, ← List.reverse_prefix, List.prefix_iff_eq_take, List.length_reverse,
    String.length_toList, eq_comm]

theorem exists_stem (h : endsIn s.toList "y" = true) : ∃ stem, s = stem ++ "y" := by
  obtain ⟨l, hl⟩ := endsIn_iff.mp h
  exact ⟨.ofList l, String.toList_inj.mp (by simp [← hl])⟩

theorem hisses_y (stem : String) : hisses (stem ++ "y") = false := by
  simp [hisses, endsIn, ← String.length_toList]

theorem hisses_i (stem : String) : hisses (stem ++ "i") = false := by
  simp [hisses, endsIn, ← String.length_toList]

theorem plural_y (h : endsInVowel stem = false) : plural (stem ++ "y") = stem ++ "ies" := by
  simp [endsInVowel, endsIn, ← String.length_toList] at h
  simp [plural, endsIn, ← String.length_toList, h]

theorem plural_vowel_y (h : endsInVowel stem = true) : plural (stem ++ "y") = stem ++ "y" ++ "s" := by
  simp [endsInVowel, endsIn, ← String.length_toList] at h
  simp [plural, endsIn, ← String.length_toList]
  tauto

theorem plural_e (stem : String) : plural (stem ++ "e") = stem ++ "e" ++ "s" := by
  simp [plural, endsIn, ← String.length_toList]

theorem plural_of_not_y (hy : endsIn s.toList "y" = false) :
    plural s = if hisses s then s ++ "es" else s ++ "s" := by
  rw [plural, hy]
  rfl

theorem plural_hisses (h : hisses s = true) : plural s = s ++ "es" := by
  rw [plural_of_not_y, if_pos h]
  by_contra hy
  obtain ⟨stem, rfl⟩ := exists_stem (eq_true_of_ne_false hy)
  rw [hisses_y] at h
  cases h

theorem plural_cases (s : String) : ∃ t, plural s = t ++ "s" ∧ (t = s ∨ SilentE s t) := by
  cases hy : endsIn s.toList "y" with
  | true =>
    obtain ⟨stem, rfl⟩ := exists_stem hy
    cases hvowel : endsInVowel stem with
    | false =>
      refine ⟨stem ++ "ie", ?_, .inr (.inl ⟨stem, hvowel, rfl, rfl⟩)⟩
      rw [plural_y hvowel, append_split stem "ie" "s" "ies" rfl]
    | true => exact ⟨stem ++ "y", plural_vowel_y hvowel, .inl rfl⟩
  | false =>
    rw [plural_of_not_y hy]
    split
    · next h => exact ⟨s ++ "e", append_split s "e" "s" "es" rfl, .inr (.inr ⟨h, rfl⟩)⟩
    · exact ⟨s, rfl, .inl rfl⟩

theorem SilentE.plural_eq (h : SilentE s t) : plural s = plural t := by
  rcases h with ⟨stem, hvowel, rfl, rfl⟩ | ⟨h, rfl⟩
  · have hie := append_split stem "i" "e" "ie" rfl
    rw [plural_y hvowel, hie, plural_e, ← hie]
    exact append_split stem "ie" "s" "ies" rfl
  · rw [plural_hisses h, plural_e]
    exact append_split s "e" "s" "es" rfl

theorem SilentE.left_unique {s' : String} (h : SilentE s t) (h' : SilentE s' t) : s = s' := by
  have hapart {stem r : String} (hr : hisses r = true) (h : stem ++ "ie" = r ++ "e") : False := by
    rw [append_split stem "i" "e" "ie" rfl, String.append_left_inj] at h
    rw [← h, hisses_i] at hr
    cases hr
  rcases h with ⟨stem, -, rfl, rfl⟩ | ⟨hs, rfl⟩ <;> rcases h' with ⟨stem', -, rfl, ht⟩ | ⟨hs', ht⟩
  · rw [(String.append_left_inj _).mp ht]
  · exact (hapart hs' ht).elim
  · exact (hapart hs ht.symm).elim
  · exact (String.append_left_inj _).mp ht

/-- Two names have one plural only if they are the same or differ by a silent `e`. -/
theorem plural_eq_iff : plural s = plural t ↔ s = t ∨ SilentE s t ∨ SilentE t s := by
  constructor
  · intro h
    obtain ⟨x, hx, hs⟩ := plural_cases s
    obtain ⟨y, hy, ht⟩ := plural_cases t
    rw [hx, hy, String.append_left_inj] at h
    subst h
    rcases hs with rfl | hs <;> rcases ht with rfl | ht
    · exact .inl rfl
    · exact .inr (.inr ht)
    · exact .inr (.inl hs)
    · exact .inl (hs.left_unique ht)
  · rintro (rfl | h | h)
    · rfl
    · exact h.plural_eq
    · exact h.plural_eq.symm

/-! ## Case -/

theorem toLower_toUpper_inj {c d : Char} (h : c.toUpper.toLower = d.toUpper.toLower) :
    c.toUpper = d.toUpper := by
  rw [Char.toLower_toUpper_eq_toLower, Char.toLower_toUpper_eq_toLower] at h
  rw [← Char.toUpper_toLower_eq_toUpper c, h, Char.toUpper_toLower_eq_toUpper]

theorem pascalChars_true (calm : Bool) (l : List Char) :
    pascalChars calm true l = [] ∨ ∃ c rest, pascalChars calm true l = Char.toUpper c :: rest := by
  induction l with
  | nil => exact .inl rfl
  | cons c cs ih =>
    rw [pascalChars]
    split
    · exact ih
    · exact .inr ⟨c, _, rfl⟩

theorem camelCase_eq_iff : camelCase s = camelCase t ↔ pascalCase s = pascalCase t := by
  refine ⟨fun h => ?_, fun h => by rw [camelCase, camelCase, h]⟩
  rw [camelCase, camelCase, pascalCase, pascalCase, String.toList_ofList, String.toList_ofList] at h
  rw [pascalCase, pascalCase]
  rcases pascalChars_true (isShouted s.toList) s.toList with hs | ⟨c, cs, hs⟩ <;>
    rcases pascalChars_true (isShouted t.toList) t.toList with ht | ⟨d, ds, ht⟩ <;>
      rw [hs, ht] at h ⊢
  · simp at h
  · simp at h
  · obtain ⟨hfirst, hrest⟩ := List.cons.inj (String.ofList_injective h)
    rw [toLower_toUpper_inj hfirst, hrest]

/-- Pascal case leaves the name as it is, unless the name is shouted. -/
def isPascal (s : String) : Bool :=
  match s.toList with
  | [] => false
  | c :: cs => c.toUpper = c && (c :: cs).all (!isNameBreak ·)

theorem pascalChars_plain {l : List Char} (h : ∀ c ∈ l, isNameBreak c = false) :
    pascalChars false false l = l := by
  induction l with
  | nil => rfl
  | cons c cs ih =>
    rw [pascalChars, h c List.mem_cons_self, ih fun c hc => h c (List.mem_cons_of_mem _ hc)]
    rfl

theorem isPascal_iff : isPascal s = true ↔
    (∃ c, s.toList.head? = some c ∧ c.toUpper = c) ∧ ∀ c ∈ s.toList, isNameBreak c = false := by
  rw [isPascal]
  cases s.toList with
  | nil => simp
  | cons c cs => simp

theorem pascalCase_eq_self (h : isPascal s = true) (hcalm : isShouted s.toList = false) :
    pascalCase s = s := by
  obtain ⟨⟨c, hhead, hupper⟩, hplain⟩ := isPascal_iff.mp h
  obtain ⟨cs, hs⟩ := List.head?_eq_some_iff.mp hhead
  have hfirst : isNameBreak c = false := hplain c (by simp [hs])
  have hrest : pascalChars false false cs = cs := pascalChars_plain fun d hd => hplain d (by simp [hs, hd])
  rw [← String.toList_inj, pascalCase, String.toList_ofList, hcalm, hs, pascalChars, hfirst, hrest, hupper]
  rfl

theorem isShouted_plural (s : String) : isShouted (plural s).toList = false := by
  obtain ⟨t, ht, -⟩ := plural_cases s
  rw [ht, String.toList_append, isShouted, List.all_append]
  simp

theorem isPascal_append {ending : String} (h : isPascal s = true)
    (hending : ∀ c ∈ ending.toList, isNameBreak c = false) : isPascal (s ++ ending) = true := by
  obtain ⟨⟨c, hhead, hupper⟩, hplain⟩ := isPascal_iff.mp h
  refine isPascal_iff.mpr ⟨⟨c, ?_, hupper⟩, fun c hc => ?_⟩
  · rw [String.toList_append, List.head?_append, hhead]
    rfl
  · rw [String.toList_append, List.mem_append] at hc
    exact hc.elim (hplain c) (hending c)

theorem isPascal_stem (h : isPascal (stem ++ "y") = true) : isPascal stem = true := by
  obtain ⟨⟨c, hhead, hupper⟩, hplain⟩ := isPascal_iff.mp h
  refine isPascal_iff.mpr ⟨⟨c, ?_, hupper⟩, fun c hc => hplain c (by simp [hc])⟩
  rw [String.toList_append, List.head?_append, Option.or_eq_some_iff] at hhead
  rcases hhead with hhead | ⟨-, hy⟩
  · exact hhead
  · obtain rfl : 'y' = c := by simpa using hy
    exact absurd hupper (by decide)

theorem isPascal_plural (h : isPascal s = true) : isPascal (plural s) = true := by
  obtain ⟨t, hplural, hs⟩ := plural_cases s
  rw [hplural]
  refine isPascal_append ?_ (by simp [isNameBreak])
  rcases hs with rfl | ⟨stem, -, rfl, rfl⟩ | ⟨-, rfl⟩
  · exact h
  · exact isPascal_append (isPascal_stem h) (by simp [isNameBreak])
  · exact isPascal_append h (by simp [isNameBreak])

theorem pascalCase_plural (h : isPascal s = true) : pascalCase (plural s) = plural s :=
  pascalCase_eq_self (isPascal_plural h) (isShouted_plural s)

end ClassSchema
