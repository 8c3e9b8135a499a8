import ClassSchema.Resolver.Reference
import Mathlib.Data.List.DropRight

/-!
# Two spellings of a reference

A reference may be written as one text or as the list of its parts. Either way blanks may stand around the
parts, and nothing else may: what is read is told from the text alone, and so the two spellings agree.
-/

namespace ClassSchema

/-- The text is the core with nothing but blanks around it. -/
def Surrounds (core s : List Char) : Prop :=
  ∃ before after, (∀ c ∈ before, isBlank c = true) ∧ (∀ c ∈ after, isBlank c = true) ∧
    s = before ++ core ++ after

variable {core s t before after : List Char}

theorem surrounds_self (s : List Char) : Surrounds s s := ⟨[], [], by simp, by simp, by simp⟩

theorem surrounds_trimmedChars (s : List Char) : Surrounds (trimmedChars s) s := by
  refine ⟨s.takeWhile isBlank, (s.dropWhile isBlank).rtakeWhile isBlank, ?_, ?_, ?_⟩
  · exact fun c hc => List.mem_takeWhile_imp hc
  · exact fun c hc => List.mem_rtakeWhile_imp hc
  · have hend : trimmedChars s ++ (s.dropWhile isBlank).rtakeWhile isBlank = s.dropWhile isBlank :=
      List.rdropWhile_append_rtakeWhile
    rw [List.append_assoc, hend, List.takeWhile_append_dropWhile]

theorem Surrounds.append (h : Surrounds core s) (hbefore : ∀ c ∈ before, isBlank c = true)
    (hafter : ∀ c ∈ after, isBlank c = true) : Surrounds core (before ++ s ++ after) := by
  obtain ⟨b, a, hb, ha, rfl⟩ := h
  refine ⟨before ++ b, a ++ after, List.forall_mem_append.mpr ⟨hbefore, hb⟩,
    List.forall_mem_append.mpr ⟨ha, hafter⟩, ?_⟩
  simp only [List.append_assoc]

theorem Surrounds.trimmedChars_eq (h : Surrounds core s) (hfirst : ∀ c ∈ core.head?, isBlank c = false)
    (hlast : ∀ c ∈ core.getLast?, isBlank c = false) : trimmedChars s = core := by
  have hdrop {u : List Char} (hu : ∀ c ∈ u.head?, isBlank c = false) : u.dropWhile isBlank = u := by
    cases u with
    | nil => rfl
    | cons c u => rw [List.dropWhile_cons_of_neg (by simp [hu c rfl])]
  obtain ⟨before, after, hbefore, hafter, rfl⟩ := h
  rw [trimmedChars, List.append_assoc, List.dropWhile_append_of_pos hbefore]
  by_cases hcore : core = []
  · subst hcore
    rw [List.nil_append, List.dropWhile_eq_nil_iff.mpr hafter]
    rfl
  · have hhead : ∀ c ∈ (core ++ after).head?, isBlank c = false := by
      rwa [List.head?_append_of_ne_nil _ hcore]
    have hend : ∀ c ∈ core.reverse.head?, isBlank c = false := by rwa [List.head?_reverse]
    rw [hdrop hhead, dropLastWhile, List.reverse_append,
      List.dropWhile_append_of_pos (by simpa using hafter), hdrop hend, List.reverse_reverse]

namespace Reference

variable {owner method : String} {r : Reference} {o m o' m' : List Char}

/-- A reference whose parts can stand in a text. -/
def WellFormed (r : Reference) : Prop := isPart r.owner.toList = true ∧ isPart r.method.toList = true

instance (r : Reference) : Decidable r.WellFormed :=
  inferInstanceAs (Decidable (_ ∧ _))

/-- A part of a reference: not empty, without colons and blanks. -/
def PlainPart (s : String) : Prop := s ≠ "" ∧ ∀ c ∈ s.toList, c ≠ ':' ∧ isBlank c = false

theorem isPart_iff (s : String) : isPart s.toList = true ↔ PlainPart s := by
  simp [isPart, PlainPart]

theorem wellFormed_iff (r : Reference) : r.WellFormed ↔ PlainPart r.owner ∧ PlainPart r.method := by
  rw [WellFormed, isPart_iff, isPart_iff]

theorem PlainPart.trimmedChars_eq (h : PlainPart owner) (hs : Surrounds owner.toList s) :
    trimmedChars s = owner.toList :=
  hs.trimmedChars_eq (fun c hc => (h.2 c (List.mem_of_mem_head? hc)).2)
    fun c hc => (h.2 c (List.mem_of_mem_getLast? hc)).2

theorem PlainPart.colon_not_mem (h : PlainPart owner) (hs : Surrounds owner.toList s) : ':' ∉ s := by
  obtain ⟨before, after, hbefore, hafter, rfl⟩ := hs
  have hcolon : isBlank ':' ≠ true := by decide
  simp only [List.mem_append, not_or]
  exact ⟨⟨fun hc => hcolon (hbefore _ hc), fun hc => (h.2 _ hc).1 rfl⟩, fun hc => hcolon (hafter _ hc)⟩

theorem ofPair_eq_ok_iff : ofPair owner method = .ok r ↔ (PlainPart r.owner ∧ PlainPart r.method) ∧
    Surrounds r.owner.toList owner.toList ∧ Surrounds r.method.toList method.toList := by
  constructor
  · intro h
    simp only [ofPair] at h
    split at h
    · next hparts =>
      obtain rfl := Except.ok.inj h
      rw [← isPart_iff, ← isPart_iff, ← Bool.and_eq_true]
      simp only [String.toList_ofList]
      exact ⟨hparts, surrounds_trimmedChars _, surrounds_trimmedChars _⟩
    · cases h
  · rintro ⟨⟨ho, hm⟩, howner, hmethod⟩
    simp [ofPair, ho.trimmedChars_eq howner, hm.trimmedChars_eq hmethod, (isPart_iff _).mpr ho,
      (isPart_iff _).mpr hm]

theorem splitPair_append {o : List Char} (h : ∀ c ∈ o, c ≠ ':') (m : List Char) :
    splitPair (o ++ ':' :: ':' :: m) = some (o, m) := by
  induction o with
  | nil => rfl
  | cons c o ih =>
    have hc : c ≠ ':' := h c List.mem_cons_self
    rw [List.cons_append, splitPair, ih fun d hd => h d (List.mem_cons_of_mem _ hd)]
    · rfl
    · simp [hc]

theorem eq_of_splitPair (h : splitPair s = some (o, m)) : s = o ++ ':' :: ':' :: m := by
  induction s using splitPair.induct generalizing o with
  | case1 rest =>
    obtain ⟨rfl, rfl⟩ := Prod.mk.inj (Option.some.inj h)
    rfl
  | case2 c rest hnot ih =>
    rw [splitPair] at h
    · obtain ⟨⟨o', m'⟩, hrest, hpair⟩ := Option.map_eq_some_iff.mp h
      obtain ⟨rfl, rfl⟩ := Prod.mk.inj hpair
      rw [ih hrest]
      rfl
    · exact hnot
  | case3 => cases h

/-- A text is read as a reference whose parts stand among blanks on the two sides of a double colon. -/
theorem parse_eq_ok_iff {text : String} : parse text = .ok r ↔ ∃ o m, text.toList = o ++ ':' :: ':' :: m ∧
    (PlainPart r.owner ∧ PlainPart r.method) ∧ Surrounds r.owner.toList o ∧
      Surrounds r.method.toList m := by
  constructor
  · intro h
    rw [parse] at h
    split at h
    · cases h
    · next o m hsplit =>
      split at h
      · next q hpair =>
        obtain rfl := Except.ok.inj h
        obtain ⟨hparts, howner, hmethod⟩ := ofPair_eq_ok_iff.mp hpair
        rw [String.toList_ofList] at howner hmethod
        obtain ⟨before, after, hbefore, hafter, htext⟩ := surrounds_trimmedChars text.toList
        refine ⟨before ++ o ++ [], [] ++ m ++ after, ?_, hparts,
          howner.append hbefore (by simp), hmethod.append (by simp) hafter⟩
        rw [htext, eq_of_splitPair hsplit]
        simp
      · cases h
  · rintro ⟨o, m, htext, ⟨ho, hm⟩, howner, hmethod⟩
    have hcolon := ho.colon_not_mem howner
    obtain ⟨b, a, hb, ha, rfl⟩ := howner
    obtain ⟨b', a', hb', ha', rfl⟩ := hmethod
    -- Without the outer blanks, each side keeps those next to the double colon.
    have htrim : trimmedChars text.toList =
        (r.owner.toList ++ a) ++ ':' :: ':' :: (b' ++ r.method.toList) := by
      apply Surrounds.trimmedChars_eq
      · exact ⟨b, a', hb, ha', by rw [htext]; simp⟩
      · have hne : r.owner.toList ≠ [] := by simpa using ho.1
        rw [List.append_assoc, List.head?_append_of_ne_nil _ hne]
        exact fun c hc => (ho.2 c (List.mem_of_mem_head? hc)).2
      · have hne : r.method.toList ≠ [] := by simpa using hm.1
        rw [← List.cons_append, ← List.cons_append, ← List.append_assoc,
          List.getLast?_append_of_ne_nil _ hne]
        exact fun c hc => (hm.2 c (List.mem_of_mem_getLast? hc)).2
    have hsplit : ∀ c ∈ r.owner.toList ++ a, c ≠ ':' := by
      rintro c hc rfl
      apply hcolon
      rw [List.append_assoc]
      exact List.mem_append_right _ hc
    have hpair : ofPair (String.ofList (r.owner.toList ++ a)) (String.ofList (b' ++ r.method.toList)) =
        .ok r := by
      rw [ofPair_eq_ok_iff, String.toList_ofList, String.toList_ofList]
      exact ⟨⟨ho, hm⟩, ⟨[], a, by simp, ha, rfl⟩, ⟨b', [], hb', by simp, by simp⟩⟩
    rw [parse, htrim, splitPair_append hsplit]
    simp only [hpair]

theorem wellFormed_of_parse {text : String} (h : parse text = .ok r) : r.WellFormed := by
  obtain ⟨-, -, -, hparts, -⟩ := parse_eq_ok_iff.mp h
  exact (wellFormed_iff r).mpr hparts

/-- A reference is read back from its text. -/
theorem parse_text (h : r.WellFormed) : parse r.text = .ok r := by
  rw [parse_eq_ok_iff, text, String.toList_ofList]
  exact ⟨_, _, rfl, (wellFormed_iff r).mp h, surrounds_self _, surrounds_self _⟩

theorem decode_text (h : r.WellFormed) : decode (.string r.text) = some r := by
  simp [decode, Value.string?, parse_text h, Except.toOption]

theorem append_colons_inj (ho : ':' ∉ o') (hm : ':' ∉ m')
    (h : o ++ ':' :: ':' :: m = o' ++ ':' :: ':' :: m') : o = o' ∧ m = m' := by
  have hcount := congrArg (List.count ':') h
  simp only [List.count_append, List.count_cons_self, List.count_eq_zero.mpr ho,
    List.count_eq_zero.mpr hm] at hcount
  have hnone : ':' ∉ o := List.count_eq_zero.mp (by omega)
  have hsplit := congrArg splitPair h
  rw [splitPair_append (by rintro c hc rfl; exact hnone hc),
    splitPair_append (by rintro c hc rfl; exact ho hc)] at hsplit
  exact Prod.mk.inj (Option.some.inj hsplit)

/-- Both spellings of a reference are read alike. What is read has plain parts, and its text is read as it. -/
theorem ofValue_spellings : (∀ owner method r, ofValue (.string (owner ++ "::" ++ method)) = .ok r ↔
      ofValue (.list [.string owner, .string method]) = .ok r) ∧
    ∀ v r, ofValue v = .ok r → PlainPart r.owner ∧ PlainPart r.method ∧
      r.text = r.owner ++ "::" ++ r.method ∧ parse r.text = .ok r := by
  constructor
  · intro owner method r
    show parse _ = _ ↔ ofPair owner method = _
    have htext : (owner ++ "::" ++ method).toList = owner.toList ++ ':' :: ':' :: method.toList := by
      simp
    rw [parse_eq_ok_iff, ofPair_eq_ok_iff, htext]
    constructor
    · rintro ⟨o, m, hsides, ⟨ho, hm⟩, howner, hmethod⟩
      obtain ⟨rfl, rfl⟩ := append_colons_inj (ho.colon_not_mem howner) (hm.colon_not_mem hmethod) hsides
      exact ⟨⟨ho, hm⟩, howner, hmethod⟩
    · rintro ⟨hparts, howner, hmethod⟩
      exact ⟨_, _, rfl, hparts, howner, hmethod⟩
  · intro v r h
    have hwell : r.WellFormed := by
      rw [ofValue.eq_def] at h
      split at h
      · exact wellFormed_of_parse h
      · exact (wellFormed_iff r).mpr (ofPair_eq_ok_iff.mp h).1
      · cases h
    have htext : r.text = r.owner ++ "::" ++ r.method := by
      simp [← String.toList_inj, text, chars]
    obtain ⟨howner, hmethod⟩ := (wellFormed_iff r).mp hwell
    exact ⟨howner, hmethod, htext, parse_text hwell⟩

/-- Blanks may stand on either side of the double colon. -/
theorem ofValue_spellings_spaced :
    ofValue (.list [.string "\tApp.Pages ", .string " title\n"]) = .ok ⟨"App.Pages", "title"⟩ ∧
    ofValue (.string ("\tApp.Pages " ++ "::" ++ " title\n")) = .ok ⟨"App.Pages", "title"⟩ ∧
    parse (text ⟨"App.Pages", "title"⟩) = .ok ⟨"App.Pages", "title"⟩ := by
  have hlist : ofValue (.list [.string "\tApp.Pages ", .string " title\n"]) =
      .ok ⟨"App.Pages", "title"⟩ := by
    decide +kernel
  obtain ⟨-, -, -, hparse⟩ := ofValue_spellings.2 _ _ hlist
  exact ⟨hlist, (ofValue_spellings.1 _ _ _).mpr hlist, hparse⟩

end Reference

end ClassSchema
