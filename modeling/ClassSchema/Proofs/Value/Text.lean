import ClassSchema.Proofs.Dict
import ClassSchema.Proofs.Value.Quoted
import Mathlib.Data.Nat.Digits.Defs

/-!
# What a compact text says

The compact text of a value tells its parts apart: values of one text are of one sort, and their items
or entries have the same texts one by one. For numbers the text is all that is used of it.
-/

namespace ClassSchema

theorem append_inj_of_forall {p : Char → Prop} {x y r s : List Char} (hx : ∀ c ∈ x, p c)
    (hy : ∀ c ∈ y, p c) (hr : ∀ c ∈ r.head?, ¬ p c) (hs : ∀ c ∈ s.head?, ¬ p c)
    (h : x ++ r = y ++ s) : x = y ∧ r = s := by
  induction x generalizing y with
  | nil =>
    cases y with
    | nil => exact ⟨rfl, h⟩
    | cons d y =>
      have hd : r.head? = some d := by
        rw [List.nil_append] at h
        simp [h]
      exact absurd (hy d List.mem_cons_self) (hr d hd)
  | cons c x ih =>
    cases y with
    | nil =>
      have hc : s.head? = some c := by
        rw [List.nil_append] at h
        simp [← h]
      exact absurd (hx c List.mem_cons_self) (hs c hc)
    | cons d y =>
      obtain ⟨rfl, hxy⟩ := List.cons.inj h
      obtain ⟨rfl, hrs⟩ := ih (fun c hc => hx c (List.mem_cons_of_mem _ hc))
        (fun c hc => hy c (List.mem_cons_of_mem _ hc)) hxy
      exact ⟨rfl, hrs⟩

namespace Number

/-- The characters that numbers are written with. -/
def IsMark (c : Char) : Prop := c.isDigit = true ∨ c = '-' ∨ c = '+' ∨ c = '.' ∨ c = 'e'

instance (c : Char) : Decidable (IsMark c) := by unfold IsMark; infer_instance

private theorem isMark_of_mem_toDigits {n : Nat} {c : Char} (h : c ∈ Nat.toDigits 10 n) :
    IsMark c := .inl (Nat.isDigit_of_mem_toDigits (by decide) (by decide) h)

private theorem isMark_of_mem_positional {d : Decimal} {whole : List Char}
    (hw : ∀ c ∈ whole, IsMark c) {c : Char} (h : c ∈ d.positional whole) : IsMark c := by
  have hzero : IsMark '0' := by decide
  dsimp only [Decimal.positional] at h
  split at h
  · rcases List.mem_append.mp h with h | h
    · rcases List.mem_append.mp h with h | h
      · exact isMark_of_mem_toDigits h
      · exact List.eq_of_mem_replicate h ▸ hzero
    · exact hw c h
  · split at h
    · rcases List.mem_append.mp h with h | h
      · exact isMark_of_mem_toDigits (List.mem_of_mem_take h)
      · rcases List.mem_cons.mp h with rfl | h
        · decide
        · exact isMark_of_mem_toDigits (List.mem_of_mem_drop h)
    · rcases List.mem_append.mp h with h | h
      · rcases List.mem_cons.mp h with rfl | h
        · exact hzero
        · rcases List.mem_cons.mp h with rfl | h
          · decide
          · exact List.eq_of_mem_replicate h ▸ hzero
      · exact isMark_of_mem_toDigits h

private theorem isMark_of_mem_scientific {d : Decimal} {c : Char} (h : c ∈ d.scientific) :
    IsMark c := by
  dsimp only [Decimal.scientific] at h
  rcases List.mem_append.mp h with h | h
  · rcases List.mem_append.mp h with h | h
    · exact isMark_of_mem_toDigits (List.mem_of_mem_take h)
    · split at h
      · cases h
      · next rest hrest =>
        rcases List.mem_cons.mp h with rfl | h
        · decide
        · exact isMark_of_mem_toDigits (List.mem_of_mem_drop h)
  · rcases List.mem_cons.mp h with rfl | h
    · decide
    · rcases List.mem_cons.mp h with rfl | h
      · split <;> decide
      · exact isMark_of_mem_toDigits h

theorem isMark_of_mem_chars {n : Number} {c : Char} (h : c ∈ n.chars) : IsMark c := by
  have hminus : IsMark '-' := by decide
  cases n with
  | integer i =>
    dsimp only [chars] at h
    split at h
    · rcases List.mem_cons.mp h with rfl | h
      · exact hminus
      · exact isMark_of_mem_toDigits h
    · exact isMark_of_mem_toDigits h
  | float x =>
    have hunsigned : ∀ t : List Char, (∀ c ∈ t, IsMark c) → c ∈ x.signed t → IsMark c := by
      intro t ht hc
      unfold Binary64.signed at hc
      split at hc
      · rcases List.mem_cons.mp hc with rfl | hc
        · exact hminus
        · exact ht c hc
      · exact ht c hc
    refine hunsigned _ (fun c hc => ?_) h
    split at hc
    · have hzero : ∀ c ∈ ['.', '0'], IsMark c := by simp [IsMark]
      exact isMark_of_mem_positional hzero hc
    · exact isMark_of_mem_scientific hc

private theorem positional_ne_nil (d : Decimal) (whole : List Char) : d.positional whole ≠ [] := by
  dsimp only [Decimal.positional]
  split
  · simp [Decimal.digitChars, Nat.toDigits_ne_nil]
  · split <;> simp

theorem chars_ne_nil (n : Number) : n.chars ≠ [] := by
  cases n with
  | integer i =>
    dsimp only [chars]
    split
    · simp
    · exact Nat.toDigits_ne_nil
  | float x =>
    dsimp only [chars, Binary64.numeral, Binary64.signed]
    split
    · simp
    · split
      · exact positional_ne_nil _ _
      · simp [Decimal.scientific]

end Number

namespace Value

/-- A rest that begins, if at all, like what follows a value inside a list or table. -/
def Closes (r : List Char) : Prop := ∀ c ∈ r.head?, c = ',' ∨ c = ']' ∨ c = '}'

theorem closes_cons {c : Char} (r : List Char) (h : c = ',' ∨ c = ']' ∨ c = '}') :
    Closes (c :: r) := by
  intro d hd
  rw [List.head?_cons, Option.mem_some_iff] at hd
  exact hd ▸ h

theorem Closes.not_isMark {r : List Char} (h : Closes r) : ∀ c ∈ r.head?, ¬ Number.IsMark c := by
  intro c hc
  rcases h c hc with rfl | rfl | rfl <;> decide

private theorem number_opening {n : Number} {c : Char} {r s : List Char}
    (h : n.chars ++ r = c :: s) : Number.IsMark c := by
  have hmem := Number.isMark_of_mem_chars (n := n) (c := c)
  cases hn : n.chars with
  | nil => exact absurd hn n.chars_ne_nil
  | cons d ds =>
    rw [hn] at h hmem
    obtain ⟨rfl, -⟩ := List.cons.inj h
    exact hmem List.mem_cons_self

private theorem opening {v : Value} {c : Char} {r s : List Char} (h : v.chars ++ r = c :: s) :
    c ≠ ']' ∧ c ≠ '}' ∧ c ≠ ',' := by
  cases v with
  | number n =>
    have hmark := number_opening h
    refine ⟨?_, ?_, ?_⟩ <;>
    · rintro rfl
      exact absurd hmark (by decide)
  | bool b => cases b <;> · obtain ⟨rfl, -⟩ := List.cons.inj h; decide
  | _ => obtain ⟨rfl, -⟩ := List.cons.inj h; decide

theorem sortName_eq_of_chars {v w : Value} {r s : List Char} (h : v.chars ++ r = w.chars ++ s) :
    v.sortName = w.sortName := by
  have hv : ∀ n : Number, v = .number n → v.sortName = w.sortName := by
    rintro n rfl
    cases w with
    | number _ => rfl
    | bool b => cases b <;> exact absurd (number_opening h) (by decide)
    | _ => exact absurd (number_opening h) (by decide)
  have hw : ∀ n : Number, w = .number n → v.sortName = w.sortName := by
    rintro n rfl
    cases v with
    | number _ => rfl
    | bool b => cases b <;> exact absurd (number_opening h.symm) (by decide)
    | _ => exact absurd (number_opening h.symm) (by decide)
  cases v with
  | number n => exact hv n rfl
  | bool b =>
    cases w with
    | number n => exact hw n rfl
    | bool _ => rfl
    | _ => cases b <;> exact absurd (List.cons.inj h).1 (by decide)
  | _ =>
    cases w with
    | number n => exact hw n rfl
    | bool b => cases b <;> exact absurd (List.cons.inj h).1 (by decide)
    | _ => first | rfl | exact absurd (List.cons.inj h).1 (by decide)

theorem itemChars_cons (v : Value) {vs : List Value} (h : vs ≠ []) :
    itemChars (v :: vs) = v.chars ++ ',' :: itemChars vs := by
  cases vs with
  | nil => exact absurd rfl h
  | cons w ws => rfl

theorem entryChars_cons (k : String) (v : Value) {es : List (String × Value)} (h : es ≠ []) :
    entryChars ((k, v) :: es) = quoted k.toList ++ ':' :: (v.chars ++ ',' :: entryChars es) := by
  cases es with
  | nil => exact absurd rfl h
  | cons e es => rfl

private theorem itemChars_cons_append (v : Value) (vs : List Value) (r : List Char) :
    ∃ s, itemChars (v :: vs) ++ ']' :: r = v.chars ++ s ∧ Closes s ∧
      (vs = [] ∧ s = ']' :: r ∨ vs ≠ [] ∧ s = ',' :: (itemChars vs ++ ']' :: r)) := by
  cases vs with
  | nil => exact ⟨_, rfl, closes_cons r (by decide), .inl ⟨rfl, rfl⟩⟩
  | cons w ws =>
    refine ⟨_, ?_, closes_cons (itemChars (w :: ws) ++ ']' :: r) (.inl rfl), .inr ⟨by simp, rfl⟩⟩
    simp [itemChars]

private theorem entryChars_cons_append (k : String) (v : Value) (es : List (String × Value))
    (r : List Char) :
    ∃ s, entryChars ((k, v) :: es) ++ '}' :: r = quoted k.toList ++ ':' :: (v.chars ++ s) ∧
      Closes s ∧
      (es = [] ∧ s = '}' :: r ∨ es ≠ [] ∧ s = ',' :: (entryChars es ++ '}' :: r)) := by
  cases es with
  | nil => exact ⟨_, by simp [entryChars], closes_cons r (by decide), .inl ⟨rfl, rfl⟩⟩
  | cons e es =>
    refine ⟨_, ?_, closes_cons (entryChars (e :: es) ++ '}' :: r) (.inl rfl), .inr ⟨by simp, rfl⟩⟩
    simp [entryChars]

mutual

/-- No text of a value is the beginning of another one's, where both are followed as in a list. -/
theorem chars_append_inj (v w : Value) {r s : List Char} (hr : Closes r) (hs : Closes s)
    (h : v.chars ++ r = w.chars ++ s) : v.chars = w.chars ∧ r = s := by
  have hsort := sortName_eq_of_chars h
  cases v with
  | null =>
    cases w with
    | null => simpa using h
    | _ => exact absurd hsort (by simp [sortName])
  | bool a =>
    cases w with
    | bool b => cases a <;> cases b <;> simp [chars] at h ⊢ <;> exact h
    | _ => exact absurd hsort (by simp [sortName])
  | number m =>
    cases w with
    | number n =>
      exact append_inj_of_forall (fun _ => Number.isMark_of_mem_chars)
        (fun _ => Number.isMark_of_mem_chars) hr.not_isMark hs.not_isMark h
    | _ => exact absurd hsort (by simp [sortName])
  | string a =>
    cases w with
    | string b =>
      obtain ⟨hab, hrs⟩ := quoted_append_inj h
      exact ⟨by rw [chars, chars, hab], hrs⟩
    | _ => exact absurd hsort (by simp [sortName])
  | list vs =>
    cases w with
    | list ws =>
      have hin : itemChars vs ++ ']' :: r = itemChars ws ++ ']' :: s := by simpa [chars] using h
      obtain ⟨-, htext, hrs⟩ := itemChars_append_inj vs ws hin
      exact ⟨by rw [chars, chars, htext], hrs⟩
    | _ => exact absurd hsort (by simp [sortName])
  | table d =>
    obtain ⟨es⟩ := d
    cases w with
    | table e =>
      obtain ⟨fs⟩ := e
      have hin : entryChars es ++ '}' :: r = entryChars fs ++ '}' :: s := by simpa [chars] using h
      obtain ⟨-, htext, hrs⟩ := entryChars_append_inj es fs hin
      exact ⟨by rw [chars, chars, htext], hrs⟩
    | _ => exact absurd hsort (by simp [sortName])

theorem itemChars_append_inj (vs ws : List Value) {r s : List Char}
    (h : itemChars vs ++ ']' :: r = itemChars ws ++ ']' :: s) :
    vs.map chars = ws.map chars ∧ itemChars vs = itemChars ws ∧ r = s := by
  cases vs with
  | nil =>
    cases ws with
    | nil => exact ⟨rfl, rfl, by simpa [itemChars] using h⟩
    | cons w ws =>
      obtain ⟨s', hs', -, -⟩ := itemChars_cons_append w ws s
      exact absurd rfl (opening (hs' ▸ h).symm).1
  | cons v vs =>
    obtain ⟨r', hr', hcr, hr''⟩ := itemChars_cons_append v vs r
    cases ws with
    | nil => exact absurd rfl (opening (hr' ▸ h)).1
    | cons w ws =>
      obtain ⟨s', hs', hcs, hs''⟩ := itemChars_cons_append w ws s
      obtain ⟨hvw, hrest⟩ := chars_append_inj v w hcr hcs (hr' ▸ hs' ▸ h)
      rcases hr'' with ⟨rfl, rfl⟩ | ⟨hvs, rfl⟩
      · rcases hs'' with ⟨rfl, rfl⟩ | ⟨hws, rfl⟩
        · refine ⟨by simp [hvw], hvw, ?_⟩
          simpa using hrest
        · exact absurd (List.cons.inj hrest).1 (by decide)
      · rcases hs'' with ⟨rfl, rfl⟩ | ⟨hws, rfl⟩
        · exact absurd (List.cons.inj hrest).1 (by decide)
        · obtain ⟨hmap, htext, hrs⟩ := itemChars_append_inj vs ws (List.cons.inj hrest).2
          refine ⟨by simp [hvw, hmap], ?_, hrs⟩
          rw [itemChars_cons v hvs, itemChars_cons w hws, hvw, htext]

theorem entryChars_append_inj (es fs : List (String × Value)) {r s : List Char}
    (h : entryChars es ++ '}' :: r = entryChars fs ++ '}' :: s) :
    es.map (fun e => (e.1, e.2.chars)) = fs.map (fun e => (e.1, e.2.chars)) ∧
      entryChars es = entryChars fs ∧ r = s := by
  cases es with
  | nil =>
    cases fs with
    | nil => exact ⟨rfl, rfl, by simpa [entryChars] using h⟩
    | cons f fs =>
      obtain ⟨s', hs', -, -⟩ := entryChars_cons_append f.1 f.2 fs s
      rw [hs'] at h
      exact absurd (List.cons.inj h).1 (by decide)
  | cons e es =>
    obtain ⟨k, v⟩ := e
    obtain ⟨r', hr', hcr, hr''⟩ := entryChars_cons_append k v es r
    cases fs with
    | nil =>
      rw [hr'] at h
      exact absurd (List.cons.inj h).1 (by decide)
    | cons f fs =>
      obtain ⟨l, w⟩ := f
      obtain ⟨s', hs', hcs, hs''⟩ := entryChars_cons_append l w fs s
      rw [hr', hs'] at h
      obtain ⟨hkl, hvalue⟩ := quoted_append_inj h
      have hkl : k = l := String.toList_inj.mp hkl
      obtain ⟨hvw, hrest⟩ := chars_append_inj v w hcr hcs (List.cons.inj hvalue).2
      rcases hr'' with ⟨rfl, rfl⟩ | ⟨hes, rfl⟩
      · rcases hs'' with ⟨rfl, rfl⟩ | ⟨hfs, rfl⟩
        · refine ⟨by simp [hvw, hkl], by rw [entryChars, entryChars, hvw, hkl], ?_⟩
          simpa using hrest
        · exact absurd (List.cons.inj hrest).1 (by decide)
      · rcases hs'' with ⟨rfl, rfl⟩ | ⟨hfs, rfl⟩
        · exact absurd (List.cons.inj hrest).1 (by decide)
        · obtain ⟨hmap, htext, hrs⟩ := entryChars_append_inj es fs (List.cons.inj hrest).2
          refine ⟨by simp [hvw, hkl, hmap], ?_, hrs⟩
          rw [entryChars_cons k v hes, entryChars_cons l w hfs, hvw, hkl, htext]

end

theorem map_chars_of_list {vs ws : List Value} (h : (list vs).chars = (list ws).chars) :
    vs.map chars = ws.map chars := by
  refine (itemChars_append_inj vs ws (r := []) (s := []) ?_).1
  simpa [chars] using h

theorem map_chars_of_table {d e : Dict Value} (h : (table d).chars = (table e).chars) :
    (d.map chars).entries = (e.map chars).entries := by
  refine (entryChars_append_inj d.entries e.entries (r := []) (s := []) ?_).1
  simpa [chars] using h

theorem sortName_eq {v w : Value} (h : v.chars = w.chars) : v.sortName = w.sortName :=
  sortName_eq_of_chars (r := []) (s := []) (by rw [h])

theorem itemChars_congr {vs ws : List Value} (h : vs.map chars = ws.map chars) :
    itemChars vs = itemChars ws := by
  induction vs generalizing ws with
  | nil =>
    have hws : ws = [] := by simpa using h
    rw [hws]
  | cons v vs ih =>
    cases ws with
    | nil => cases h
    | cons w ws =>
      obtain ⟨hvw, hrest⟩ := List.cons.inj h
      have hlength : vs.length = ws.length := by simpa using congrArg List.length hrest
      by_cases hvs : vs = []
      · have hws : ws = [] := List.eq_nil_of_length_eq_zero (by rw [← hlength, hvs]; rfl)
        rw [hvs, hws]
        exact hvw
      · have hws : ws ≠ [] := by
          rintro rfl
          exact hvs (List.eq_nil_of_length_eq_zero hlength)
        rw [itemChars_cons v hvs, itemChars_cons w hws, hvw, ih hrest]

theorem entryChars_congr {es fs : List (String × Value)}
    (h : es.map (fun e => (e.1, e.2.chars)) = fs.map (fun e => (e.1, e.2.chars))) :
    entryChars es = entryChars fs := by
  induction es generalizing fs with
  | nil =>
    have hfs : fs = [] := by simpa using h
    rw [hfs]
  | cons e es ih =>
    cases fs with
    | nil => cases h
    | cons f fs =>
      obtain ⟨k, v⟩ := e
      obtain ⟨l, w⟩ := f
      obtain ⟨hhead, hrest⟩ := List.cons.inj h
      obtain ⟨rfl, hvw⟩ : k = l ∧ v.chars = w.chars := by simpa using hhead
      have hlength : es.length = fs.length := by simpa using congrArg List.length hrest
      by_cases hes : es = []
      · have hfs : fs = [] := List.eq_nil_of_length_eq_zero (by rw [← hlength, hes]; rfl)
        rw [hes, hfs]
        simp [entryChars, hvw]
      · have hfs : fs ≠ [] := by
          rintro rfl
          exact hes (List.eq_nil_of_length_eq_zero hlength)
        rw [entryChars_cons k v hes, entryChars_cons k w hfs, hvw, ih hrest]

end Value

end ClassSchema
