import ClassSchema.Proofs.Name

/-!
# Pascal case of Pascal case

Pascal case works word by word. What it gives has no breaks left, so the next run sees one word, and leaves it
as it is unless it takes the word for a shouted name.
-/

namespace ClassSchema

/-- The parts of a name between its breaks, empty ones included. -/
def nameWords (s : String) : List (List Char) := s.toList.splitOnP isNameBreak

/-- A word in Pascal case. -/
def capitalized (calm : Bool) : List Char → List Char
  | [] => []
  | c :: cs => c.toUpper :: if calm then cs.map Char.toLower else cs

theorem length_capitalized (calm : Bool) (w : List Char) : (capitalized calm w).length = w.length := by
  cases w with
  | nil => rfl
  | cons c cs => cases calm <;> simp [capitalized]

private theorem pascalChars_splitOnP (calm : Bool) (l : List Char) :
    ∃ w ws, l.splitOnP isNameBreak = w :: ws ∧
      pascalChars calm true l = capitalized calm w ++ ws.flatMap (capitalized calm) ∧
      pascalChars calm false l =
        (if calm then w.map Char.toLower else w) ++ ws.flatMap (capitalized calm) := by
  induction l with
  | nil => exact ⟨[], [], List.splitOnP_nil, rfl, by cases calm <;> rfl⟩
  | cons c cs ih =>
    obtain ⟨w, ws, hwords, hstart, hmidst⟩ := ih
    rw [List.splitOnP_cons_eq_if_modifyHead, hwords]
    cases hc : isNameBreak c with
    | true =>
      refine ⟨[], w :: ws, rfl, ?_, ?_⟩
      · rw [pascalChars, if_pos hc, hstart]
        rfl
      · rw [pascalChars, if_pos hc, hstart]
        cases calm <;> rfl
    | false =>
      refine ⟨c :: w, ws, rfl, ?_, ?_⟩
      · rw [pascalChars, hc, hmidst]
        rfl
      · rw [pascalChars, hc, hmidst]
        cases calm <;> rfl

/-- Pascal case is put together from the words of a name. -/
theorem toList_pascalCase (s : String) :
    (pascalCase s).toList = (nameWords s).flatMap (capitalized (isShouted s.toList)) := by
  obtain ⟨w, ws, hwords, hstart, -⟩ := pascalChars_splitOnP (isShouted s.toList) s.toList
  rw [pascalCase, String.toList_ofList, hstart, nameWords, hwords, List.flatMap_cons]

/-! ## One word -/

theorem isNameBreak_of_isAlpha {c : Char} (h : c.isAlpha = true) : isNameBreak c = false := by
  by_contra hbreak
  simp only [Bool.not_eq_false, isNameBreak, Bool.or_eq_true, decide_eq_true_eq] at hbreak
  rcases hbreak with ((rfl | rfl) | rfl) | rfl <;> exact absurd h (by decide)

theorem isNameBreak_case {c : Char} (h : isNameBreak c = false) :
    isNameBreak c.toUpper = false ∧ isNameBreak c.toLower = false := by
  cases halpha : c.isAlpha with
  | true =>
    exact ⟨isNameBreak_of_isAlpha (by rw [Char.isAlpha_toUpper_eq_isAlpha, halpha]),
      isNameBreak_of_isAlpha (by rw [Char.isAlpha_toLower_eq_isAlpha, halpha])⟩
  | false =>
    rw [Char.isAlpha, Bool.or_eq_false_iff] at halpha
    rw [Char.toUpper_eq_of_not_isLower (by simp [halpha.2]),
      Char.toLower_eq_of_not_isUpper (by simp [halpha.1])]
    exact ⟨h, h⟩

theorem isNameBreak_of_mem_pascalChars {calm start : Bool} {l : List Char} {c : Char}
    (h : c ∈ pascalChars calm start l) : isNameBreak c = false := by
  induction l generalizing start with
  | nil => cases h
  | cons d ds ih =>
    rw [pascalChars] at h
    split at h
    · exact ih h
    · next hbreak =>
      have hcase := isNameBreak_case (by simpa using hbreak)
      rcases List.mem_cons.mp h with rfl | h
      · cases start <;> cases calm
        · simpa using hbreak
        · exact hcase.2
        · exact hcase.1
        · exact hcase.1
      · exact ih h

/-- Pascal case is Pascal case, unless nothing is left. -/
theorem isPascal_pascalCase {s : String} (h : pascalCase s ≠ "") : isPascal (pascalCase s) = true := by
  refine isPascal_iff.mpr ⟨?_, fun c hc => ?_⟩
  · rw [pascalCase, String.toList_ofList]
    rcases pascalChars_true (isShouted s.toList) s.toList with hnil | ⟨c, cs, hcons⟩
    · rw [pascalCase, hnil] at h
      exact absurd rfl h
    · exact ⟨c.toUpper, by rw [hcons]; rfl, Char.toUpper_toUpper_eq_toUpper c⟩
  · rw [pascalCase, String.toList_ofList] at hc
    exact isNameBreak_of_mem_pascalChars hc

theorem toList_pascalCase_of_isPascal {s : String} (h : isPascal s = true) :
    (pascalCase s).toList = capitalized (isShouted s.toList) s.toList := by
  have hword : nameWords s = [s.toList] := List.splitOnP_eq_singleton (isPascal_iff.mp h).2
  rw [toList_pascalCase, hword, List.flatMap_singleton]

theorem isShouted_of_plain {l : List Char} (h : ∀ c ∈ l, isNameBreak c = false) :
    isShouted l = l.all Char.isUpper := by
  rw [isShouted, Bool.eq_iff_iff, List.all_eq_true, List.all_eq_true]
  refine forall₂_congr fun c hc => ?_
  have hbreak := h c hc
  simp only [isNameBreak, Bool.or_eq_false_iff, decide_eq_false_iff_not] at hbreak
  simp [hbreak]

/-- Two capitals or more and nothing else, which cannot be told from a shouted name of one word. -/
def IsAcronym (s : String) : Prop := 2 ≤ s.toList.length ∧ ∀ c ∈ s.toList, c.isUpper = true

/-- Of the names in Pascal case just the acronyms are changed. -/
theorem pascalCase_eq_self_iff {s : String} (h : isPascal s = true) :
    pascalCase s = s ↔ ¬ IsAcronym s := by
  have hshouted := isShouted_of_plain (isPascal_iff.mp h).2
  cases hcalm : isShouted s.toList with
  | false =>
    refine iff_of_true (pascalCase_eq_self h hcalm) fun hacronym => ?_
    rw [hshouted, List.all_eq_false] at hcalm
    obtain ⟨c, hc, hnot⟩ := hcalm
    exact hnot (hacronym.2 c hc)
  | true =>
    rw [hshouted, List.all_eq_true] at hcalm
    obtain ⟨⟨c, hhead, hupper⟩, -⟩ := isPascal_iff.mp h
    obtain ⟨cs, hs⟩ := List.head?_eq_some_iff.mp hhead
    rw [← String.toList_inj, toList_pascalCase_of_isPascal h, hshouted, List.all_eq_true.mpr hcalm,
      IsAcronym, hs, capitalized, hupper]
    rw [hs] at hcalm
    cases cs with
    | nil => simp
    | cons d ds =>
      -- The second capital becomes small, so the name is not what it was.
      have hd : d.toLower ≠ d := by
        intro heq
        have hsmall := Char.isUpper_toLower_eq_false d
        rw [heq, hcalm d (by simp)] at hsmall
        cases hsmall
      refine iff_of_false (by simp [hd]) (not_not.mpr ⟨by simp, hcalm⟩)

/-! ## All words -/

/-- More than one character stays, every word begins with a letter, and behind that it has capitals only, or
nothing if the name is shouted. -/
structure MakesAcronym (s : String) : Prop where
  long : 2 ≤ (nameWords s).flatten.length
  begins : ∀ w ∈ nameWords s, ∀ c ∈ w.head?, c.isAlpha = true
  goesOn : ∀ w ∈ nameWords s, ∀ c ∈ w.tail, c.isUpper = true ∧ isShouted s.toList = false

theorem capitalized_isUpper_iff (calm : Bool) (w : List Char) :
    (∀ c ∈ capitalized calm w, c.isUpper = true) ↔
      (∀ c ∈ w.head?, c.isAlpha = true) ∧ ∀ c ∈ w.tail, c.isUpper = true ∧ calm = false := by
  cases w with
  | nil => simp [capitalized]
  | cons c cs => cases calm <;> simp [capitalized, Char.isUpper_toUpper_eq_isAlpha]

theorem isAcronym_pascalCase_iff (s : String) : IsAcronym (pascalCase s) ↔ MakesAcronym s := by
  have hlength : (pascalCase s).toList.length = (nameWords s).flatten.length := by
    simp [toList_pascalCase, List.length_flatMap, List.length_flatten, length_capitalized]
  have hupper : (∀ c ∈ (pascalCase s).toList, c.isUpper = true) ↔ ∀ w ∈ nameWords s,
      (∀ c ∈ w.head?, c.isAlpha = true) ∧ ∀ c ∈ w.tail, c.isUpper = true ∧ isShouted s.toList = false := by
    simp only [toList_pascalCase, List.forall_mem_flatMap, capitalized_isUpper_iff]
  rw [IsAcronym, hlength, hupper]
  exact ⟨fun h => ⟨h.1, fun w hw => (h.2 w hw).1, fun w hw => (h.2 w hw).2⟩,
    fun h => ⟨h.long, fun w hw => ⟨h.begins w hw, h.goesOn w hw⟩⟩⟩

theorem not_makesAcronym {s : String} (hpascal : isPascal s = true) (h : IsAcronym s) : ¬ MakesAcronym s := by
  intro hmakes
  have hplain := (isPascal_iff.mp hpascal).2
  have hword : nameWords s = [s.toList] := List.splitOnP_eq_singleton hplain
  have hshouted : isShouted s.toList = true := by
    rw [isShouted_of_plain hplain, List.all_eq_true]
    exact h.2
  obtain ⟨d, hd⟩ : ∃ d, d ∈ s.toList.tail :=
    List.exists_mem_of_length_pos (by have hlong := h.1; rw [List.length_tail]; omega)
  have hcalm := (hmakes.goesOn s.toList (by simp [hword]) d hd).2
  rw [hshouted] at hcalm
  cases hcalm

/-- What Pascal case gives it leaves as it is, unless it is nothing but capitals. -/
theorem pascalCase_pascalCase_eq_iff (s : String) :
    pascalCase (pascalCase s) = pascalCase s ↔ ¬ IsAcronym (pascalCase s) := by
  by_cases hempty : pascalCase s = ""
  · rw [hempty]
    exact iff_of_true rfl fun h => absurd h.1 (by decide)
  · exact pascalCase_eq_self_iff (isPascal_pascalCase hempty)

/-- A name in Pascal case is left as it is, unless Pascal case made an acronym of it, which the next run takes
for a shouted name. After that nothing changes any more. -/
theorem pascalCase_pascalCase_iff (s : String) :
    (pascalCase (pascalCase s) = pascalCase s ↔ ¬ MakesAcronym s) ∧
      pascalCase (pascalCase (pascalCase s)) = pascalCase (pascalCase s) := by
  have honce (t : String) : pascalCase (pascalCase t) = pascalCase t ↔ ¬ MakesAcronym t := by
    rw [pascalCase_pascalCase_eq_iff, isAcronym_pascalCase_iff]
  refine ⟨honce s, ?_⟩
  by_cases hacronym : IsAcronym (pascalCase s)
  · have hempty : pascalCase s ≠ "" := by
      intro hempty
      rw [hempty] at hacronym
      exact absurd hacronym.1 (by decide)
    exact (honce (pascalCase s)).mpr (not_makesAcronym (isPascal_pascalCase hempty) hacronym)
  · have hself := (pascalCase_pascalCase_eq_iff s).mpr hacronym
    rw [hself, hself]

/-- Two words of one letter make an acronym, which the next run writes as one word. -/
theorem not_pascalCase_pascalCase : ¬ ∀ s, pascalCase (pascalCase s) = pascalCase s := by
  intro h
  have hletters : pascalCase "A_B" = "AB" := by decide
  have hword : pascalCase "AB" = "Ab" := by decide
  have hboth := h "A_B"
  rw [hletters, hword] at hboth
  exact absurd hboth (by decide)

end ClassSchema
