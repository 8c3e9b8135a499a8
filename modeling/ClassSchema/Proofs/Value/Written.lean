import ClassSchema.Proofs.Decimal.Shortest
import ClassSchema.Proofs.Value.Distinct

/-!
# Numbers as they are written

A number is written as a numeral that reads back. That of a float has a fraction or an exponent, and
its exact value is the float's shortest decimal; so numbers of one text are equal.
-/

namespace ClassSchema

/-! ### Digits -/

/-- Digits, at least one. -/
def Digits (ds : List Char) : Prop := ds ≠ [] ∧ ∀ c ∈ ds, isDigit c = true

theorem isDigit_eq (c : Char) : isDigit c = c.isDigit := by
  rw [Bool.eq_iff_iff]
  simp [isDigit, Char.isDigit, Char.le_def]

theorem digits_toDigits (n : Nat) : Digits (Nat.toDigits 10 n) :=
  ⟨Nat.toDigits_ne_nil, fun _ hc =>
    (isDigit_eq _).trans (Nat.isDigit_of_mem_toDigits (by decide) (by decide) hc)⟩

theorem digits_zero : Digits ['0'] := digits_toDigits 0

theorem Digits.append {ds es : List Char} (hd : Digits ds) (he : ∀ c ∈ es, isDigit c = true) :
    Digits (ds ++ es) := by
  refine ⟨List.append_ne_nil_of_left_ne_nil hd.1 es, fun c hc => ?_⟩
  rcases List.mem_append.mp hc with hc | hc
  · exact hd.2 c hc
  · exact he c hc

theorem Digits.of_subset {ds es : List Char} (h : Digits ds) (hsub : es ⊆ ds) (hne : es ≠ []) :
    Digits es :=
  ⟨hne, fun c hc => h.2 c (hsub hc)⟩

theorem isDigit_of_mem_zeros {n : Nat} {c : Char} (h : c ∈ Decimal.zeros n) : isDigit c = true :=
  List.eq_of_mem_replicate h ▸ by decide

theorem head?_toDigits_ne {n : Nat} (h : n ≠ 0) : (Nat.toDigits 10 n).head? ≠ some '0' := by
  induction n using Nat.strongRecOn with
  | _ n ih =>
    rw [Nat.toDigits_eq_if (by decide)]
    split
    · next hlt =>
      have hdigit : ∀ m < 10, m ≠ 0 → m.digitChar ≠ '0' := by decide
      rw [List.head?_cons, ne_eq, Option.some.injEq]
      exact hdigit n hlt h
    · rw [List.head?_append_of_ne_nil _ Nat.toDigits_ne_nil]
      exact ih (n / 10) (by omega) (by omega)

theorem digitsValue_toDigits (n : Nat) : digitsValue (Nat.toDigits 10 n) = n :=
  Nat.ofDigitChars_toDigits (by decide) (by decide)

theorem digitsValue_append (ds es : List Char) :
    digitsValue (ds ++ es) = digitsValue ds * 10 ^ es.length + digitsValue es := by
  have h := Nat.ofDigitChars_append (b := 10) (l := ds) (m := es) 0
  rw [Nat.ofDigitChars_eq_ofDigitChars_zero (l := es), Nat.mul_comm] at h
  exact h

theorem digitsValue_zeros (n : Nat) : digitsValue (Decimal.zeros n) = 0 :=
  Nat.ofDigitChars_replicate_zero.trans (Nat.mul_zero _)

namespace Numeral

/-! ### Writing numerals -/

/-- A numeral that can be written: zero stands alone before the point. -/
structure Proper (n : Numeral) : Prop where
  whole : Digits n.whole
  single : n.whole.head? = some '0' → n.whole = ['0']
  fraction : ∀ ds ∈ n.fraction, Digits ds
  exponent : ∀ p ∈ n.exponent, Digits p.2

def fractionChars : Option (List Char) → List Char
  | none => []
  | some ds => '.' :: ds

def exponentChars : Option (Bool × List Char) → List Char
  | none => []
  | some (minus, ds) => 'e' :: (if minus then '-' else '+') :: ds

def unsignedChars (n : Numeral) : List Char :=
  n.whole ++ (fractionChars n.fraction ++ exponentChars n.exponent)

def written (n : Numeral) : List Char :=
  if n.negative then '-' :: n.unsignedChars else n.unsignedChars

variable {n : Numeral} {ds r : List Char}

private theorem takeWhile_isDigit_of_head (hr : ∀ c ∈ r.head?, isDigit c = false) :
    r.takeWhile isDigit = [] ∧ r.dropWhile isDigit = r := by
  cases r with
  | nil => exact ⟨rfl, rfl⟩
  | cons c r =>
    have hc := hr c rfl
    exact ⟨List.takeWhile_cons_of_neg (by simp [hc]), List.dropWhile_cons_of_neg (by simp [hc])⟩

theorem readDigits_of_digits (h : Digits ds) (hr : ∀ c ∈ r.head?, isDigit c = false) :
    readDigits (ds ++ r) = some (ds, r) := by
  obtain ⟨htake, hdrop⟩ := takeWhile_isDigit_of_head hr
  rw [readDigits, List.takeWhile_append_of_pos h.2, List.dropWhile_append_of_pos h.2, htake, hdrop,
    List.append_nil]
  split
  · exact absurd rfl h.1
  · rfl

theorem readWhole_of_proper (h : n.Proper) (hr : ∀ c ∈ r.head?, isDigit c = false) :
    readWhole (n.whole ++ r) = some (n.whole, r) := by
  rw [readWhole, readDigits_of_digits h.whole hr]
  split
  · next hzero =>
    obtain ⟨hwhole, -⟩ := Prod.mk.inj (Option.some.inj hzero)
    have hsingle := h.single (by rw [hwhole]; rfl)
    rw [hwhole] at hsingle
    cases hsingle
  · rfl

theorem readFraction_fractionChars {f : Option (List Char)} (h : ∀ ds ∈ f, Digits ds)
    (hr : ∀ c ∈ r.head?, isDigit c = false ∧ c ≠ '.') :
    readFraction (fractionChars f ++ r) = some (f, r) := by
  cases f with
  | none =>
    cases r with
    | nil => rfl
    | cons c r =>
      have hpoint := (hr c rfl).2
      simp [fractionChars, readFraction, hpoint]
  | some ds =>
    show (readDigits (ds ++ r)).map (fun p => (some p.1, p.2)) = some (some ds, r)
    rw [readDigits_of_digits (h ds rfl) fun c hc => (hr c hc).1]
    rfl

theorem readExponent_exponentChars {e : Option (Bool × List Char)} (h : ∀ p ∈ e, Digits p.2) :
    readExponent (exponentChars e) = some (e, []) := by
  cases e with
  | none => rfl
  | some p =>
    obtain ⟨minus, ds⟩ := p
    have hdigits := readDigits_of_digits (r := []) (h _ rfl) (by simp)
    rw [List.append_nil] at hdigits
    cases minus <;> simp [exponentChars, readExponent, readPower, hdigits]

private theorem head_exponentChars (e : Option (Bool × List Char)) :
    ∀ c ∈ (exponentChars e).head?, isDigit c = false ∧ c ≠ '.' := by
  cases e with
  | none => simp [exponentChars]
  | some p =>
    simp only [exponentChars, List.head?_cons, Option.mem_some_iff]
    rintro c rfl
    decide

private theorem head_fractionChars (f : Option (List Char)) (e : Option (Bool × List Char)) :
    ∀ c ∈ (fractionChars f ++ exponentChars e).head?, isDigit c = false := by
  cases f with
  | none => exact fun c hc => (head_exponentChars e c hc).1
  | some ds =>
    simp only [fractionChars, List.cons_append, List.head?_cons, Option.mem_some_iff]
    rintro c rfl
    decide

theorem readUnsigned_of_proper (h : n.Proper) :
    readUnsigned n.negative n.unsignedChars = some (n, []) := by
  rw [readUnsigned, unsignedChars, readWhole_of_proper h (head_fractionChars _ _)]
  simp only [Option.bind_eq_bind, Option.bind_some, Option.pure_def,
    readFraction_fractionChars h.fraction (head_exponentChars _), readExponent_exponentChars h.exponent]

theorem read_written (h : n.Proper) : read n.written = some (n, []) := by
  have hread := readUnsigned_of_proper h
  rw [written]
  split
  · next hnegative => rw [read, ← hnegative, hread]
  · next hnegative =>
    rw [Bool.not_eq_true] at hnegative
    obtain ⟨c, cs, hwhole⟩ := List.exists_cons_of_ne_nil h.whole.1
    have hdigit : isDigit c = true := h.whole.2 c (hwhole ▸ List.mem_cons_self)
    have hchars : n.unsignedChars =
        c :: (cs ++ (fractionChars n.fraction ++ exponentChars n.exponent)) := by
      rw [unsignedChars, hwhole, List.cons_append]
    rw [read, ← hnegative, hread]
    rintro r hr
    rw [hchars] at hr
    rw [(List.cons.inj hr).1] at hdigit
    exact absurd hdigit (by decide)

theorem written_inj {m : Numeral} (hm : m.Proper) (hn : n.Proper) (h : m.written = n.written) :
    m = n := by
  have hread := read_written hm
  rw [h, read_written hn] at hread
  exact (Prod.mk.inj (Option.some.inj hread)).1.symm

/-! ### Exact values -/

/-- The power of ten that an exponent names. -/
def power (n : Numeral) : Int :=
  match n.exponent with
  | none => 0
  | some (minus, ds) => if minus then -(digitsValue ds : Int) else digitsValue ds

/-- The absolute value, before any rounding. -/
def magnitude (n : Numeral) : ℚ :=
  digitsValue (n.whole ++ n.fraction.getD []) * 10 ^ (n.power - (n.fraction.getD []).length)

theorem magnitude_of_fraction (negative : Bool) (whole fraction : List Char) :
    magnitude ⟨negative, whole, some fraction, none⟩ =
      digitsValue (whole ++ fraction) * 10 ^ (-(fraction.length : Int)) := by
  rw [magnitude, power, zero_sub]
  rfl

/-- Whether a point or an exponent marks a number as a float. -/
def IsFloat (n : Numeral) : Prop := n.fraction ≠ none ∨ n.exponent ≠ none

end Numeral

namespace Decimal

variable {d : Decimal}

/-- How a decimal can be written without its sign. -/
def WrittenAs (d : Decimal) (text : List Char) : Prop :=
  ∀ negative, ∃ n : Numeral, n.Proper ∧ n.negative = negative ∧ n.unsignedChars = text ∧
    n.magnitude = d.value ∧ n.IsFloat

private theorem digits_digitChars (d : Decimal) : Digits d.digitChars := digits_toDigits d.digits

private theorem digitsValue_digitChars (d : Decimal) : digitsValue d.digitChars = d.digits :=
  digitsValue_toDigits d.digits

private theorem digits_eq_zero_of_head (h : d.digitChars.head? = some '0') : d.digits = 0 := by
  by_contra hne
  exact head?_toDigits_ne hne h

private theorem writtenAs_of_fraction {whole fraction : List Char} (hwhole : Digits whole)
    (hsingle : whole.head? = some '0' → whole = ['0']) (hfraction : Digits fraction)
    (hvalue : (digitsValue (whole ++ fraction) : ℚ) * 10 ^ (-(fraction.length : Int)) = d.value) :
    d.WrittenAs (whole ++ '.' :: fraction) := by
  intro negative
  refine ⟨⟨negative, whole, some fraction, none⟩, ⟨hwhole, hsingle, ?_, by simp⟩, rfl, ?_, ?_,
    .inl (by simp)⟩
  · rintro ds hds
    obtain rfl := Option.some.inj hds
    exact hfraction
  · simp [Numeral.unsignedChars, Numeral.fractionChars, Numeral.exponentChars]
  · rw [Numeral.magnitude_of_fraction, hvalue]

private theorem writtenAs_whole (h : d.digits = 0 → d.exponent = 0) (hexponent : 0 ≤ d.exponent) :
    d.WrittenAs (d.digitChars ++ zeros d.exponent.toNat ++ ['.', '0']) := by
  have hds := digits_digitChars d
  refine writtenAs_of_fraction (hds.append fun c => isDigit_of_mem_zeros) (fun hhead => ?_) digits_zero ?_
  · rw [List.head?_append_of_ne_nil _ hds.1] at hhead
    have hzero := digits_eq_zero_of_head hhead
    rw [h hzero, digitChars, hzero]
    rfl
  · obtain ⟨k, hk⟩ := Int.eq_ofNat_of_zero_le hexponent
    have hvalue : digitsValue (d.digitChars ++ zeros k ++ ['0']) = d.digits * 10 ^ k * 10 := by
      rw [digitsValue_append, digitsValue_append, digitsValue_digitChars, digitsValue_zeros]
      simp [zeros, digitsValue, digitValue]
    rw [value, hk, Int.toNat_natCast, hvalue]
    push_cast
    simp

private theorem writtenAs_point (hexponent : d.exponent < 0) {k : Nat}
    (hk : (k : Int) = d.digitChars.length + d.exponent) (hpos : 0 < k) :
    d.WrittenAs (d.digitChars.take k ++ '.' :: d.digitChars.drop k) := by
  have hds := digits_digitChars d
  refine writtenAs_of_fraction (hds.of_subset (List.take_subset _ _) ?_) (fun hhead => ?_)
    (hds.of_subset (List.drop_subset _ _) ?_) ?_
  · simp [List.take_eq_nil_iff, hds.1, hpos.ne']
  · -- The digits of zero are one, with no place for the point behind it.
    have hzero := digits_eq_zero_of_head (by simpa [List.head?_take, hpos.ne'] using hhead)
    rw [digitChars, hzero, Nat.toDigits_zero] at hk
    simp only [List.length_cons, List.length_nil] at hk
    omega
  · simp only [ne_eq, List.drop_eq_nil_iff]
    omega
  · rw [value, List.take_append_drop, digitsValue_digitChars, List.length_drop]
    congr 2
    omega

private theorem writtenAs_small {k : Nat} (hk : (k : Int) = -(d.digitChars.length + d.exponent)) :
    d.WrittenAs ('0' :: '.' :: zeros k ++ d.digitChars) := by
  have hds := digits_digitChars d
  have hfraction : Digits (zeros k ++ d.digitChars) := by
    refine ⟨List.append_ne_nil_of_right_ne_nil _ hds.1, fun c hc => ?_⟩
    rcases List.mem_append.mp hc with hc | hc
    · exact isDigit_of_mem_zeros hc
    · exact hds.2 c hc
  have hvalue : digitsValue (['0'] ++ (zeros k ++ d.digitChars)) = d.digits := by
    rw [digitsValue_append, digitsValue_append, digitsValue_digitChars, digitsValue_zeros]
    simp [digitsValue, digitValue]
  have hlength : (zeros k ++ d.digitChars).length = k + d.digitChars.length := by simp [zeros]
  refine writtenAs_of_fraction digits_zero (fun _ => rfl) hfraction ?_
  change (digitsValue (['0'] ++ (zeros k ++ d.digitChars)) : ℚ) *
    10 ^ (-((zeros k ++ d.digitChars).length : Int)) = d.value
  rw [value, hvalue, hlength]
  congr 2
  omega

theorem writtenAs_positional (h : d.digits = 0 → d.exponent = 0) :
    d.WrittenAs (d.positional ['.', '0']) := by
  rw [positional]
  split
  · next hexponent => exact writtenAs_whole h hexponent
  · next hexponent =>
    split
    · next hpoint => exact writtenAs_point (by omega) (by omega) (by omega)
    · next hpoint => exact writtenAs_small (by omega)

private theorem exists_fraction (cs : List Char) :
    ∃ f : Option (List Char), f.getD [] = cs ∧ (∀ ds ∈ f, ds = cs ∧ ds ≠ []) ∧
      Numeral.fractionChars f = match cs with | [] => [] | rest => '.' :: rest := by
  cases cs with
  | nil => exact ⟨none, rfl, by simp, rfl⟩
  | cons c cs => exact ⟨some (c :: cs), rfl, by simp, rfl⟩

theorem writtenAs_scientific (d : Decimal) : d.WrittenAs d.scientific := by
  intro negative
  obtain ⟨hne, hdigits⟩ := digits_digitChars d
  have hvalue := digitsValue_digitChars d
  rw [scientific]
  generalize hpower : (d.digitChars.length : Int) + d.exponent - 1 = power
  obtain ⟨c, cs, hchars⟩ := List.exists_cons_of_ne_nil hne
  rw [hchars] at hdigits hvalue hpower ⊢
  obtain ⟨f, hrest, hf, hfraction⟩ := exists_fraction cs
  refine ⟨⟨negative, [c], f, some (decide (power < 0), Nat.toDigits 10 power.natAbs)⟩, ?_, rfl, ?_, ?_,
    .inr (by simp)⟩
  · refine ⟨⟨by simp, by simpa using hdigits c⟩, fun hhead => ?_, fun ds hds => ?_, ?_⟩
    · rw [Option.some.inj hhead]
    · obtain ⟨rfl, hds⟩ := hf ds hds
      exact ⟨hds, fun c hc => hdigits c (List.mem_cons_of_mem _ hc)⟩
    · rintro p hp
      obtain rfl := Option.some.inj hp
      exact digits_toDigits _
  · rw [Numeral.unsignedChars, hfraction]
    cases cs <;> simp [Numeral.exponentChars]
  · have hexponent : (if power < 0 then -(power.natAbs : Int) else power.natAbs) = power := by omega
    rw [Numeral.magnitude, Numeral.power, hrest]
    simp only [List.singleton_append, hvalue, digitsValue_toDigits, decide_eq_true_eq, hexponent, value]
    congr 2
    rw [← hpower, List.length_cons]
    omega

end Decimal

/-! ### How numbers begin -/

namespace Decimal

private theorem exists_digitChars (d : Decimal) : ∃ c cs, d.digitChars = c :: cs ∧ isDigit c = true := by
  obtain ⟨hne, hdigits⟩ := digits_digitChars d
  obtain ⟨c, cs, hchars⟩ := List.exists_cons_of_ne_nil hne
  exact ⟨c, cs, hchars, hdigits c (hchars ▸ List.mem_cons_self)⟩

private theorem isDigit_head_positional (d : Decimal) (whole : List Char) :
    ∀ c ∈ (d.positional whole).head?, isDigit c = true := by
  obtain ⟨c, cs, hchars, hc⟩ := exists_digitChars d
  rw [positional, hchars]
  split
  · simpa using hc
  · split
    · next hpoint =>
      obtain ⟨k, hk⟩ := Nat.exists_eq_succ_of_ne_zero
        (show ((c :: cs).length + d.exponent).toNat ≠ 0 by omega)
      rw [hk]
      simpa using hc
    · simp only [List.cons_append, List.head?_cons, Option.mem_some_iff]
      rintro c rfl
      decide

private theorem isDigit_head_scientific (d : Decimal) :
    ∀ c ∈ d.scientific.head?, isDigit c = true := by
  obtain ⟨c, cs, hchars, hc⟩ := exists_digitChars d
  rw [scientific, hchars]
  simpa using hc

end Decimal

namespace Number

theorem head_chars (n : Number) : ∀ c ∈ n.chars.head?, isDigit c = true ∨ c = '-' := by
  have hsigned (negative : Bool) (text : List Char) (ht : ∀ c ∈ text.head?, isDigit c = true) :
      ∀ c ∈ (if negative then '-' :: text else text).head?, isDigit c = true ∨ c = '-' := by
    intro c hc
    cases negative with
    | false => exact .inl (ht c hc)
    | true => exact .inr (Option.some.inj hc).symm
  cases n with
  | integer i =>
    have hdigits : ∀ c ∈ (Nat.toDigits 10 i.natAbs).head?, isDigit c = true :=
      fun c hc => (digits_toDigits i.natAbs).2 c (List.mem_of_mem_head? hc)
    simpa [chars] using hsigned (decide (i < 0)) _ hdigits
  | float x =>
    refine hsigned x.negative _ fun c hc => ?_
    split at hc
    · exact Decimal.isDigit_head_positional _ _ c hc
    · exact Decimal.isDigit_head_scientific _ c hc

end Number

/-! ### What the text of a number says -/

namespace Numeral

/-- A numeral says an integer exactly, and a float by its sign and its shortest decimal. -/
def Says (m : Numeral) : Number → Prop
  | .integer i => ¬ m.IsFloat ∧ i = if m.negative then -(digitsValue m.whole : Int) else digitsValue m.whole
  | .float x => m.IsFloat ∧ m.negative = x.negative ∧ m.magnitude = x.shortest.value

theorem Says.unique {m : Numeral} {a b : Number} (ha : a.Canonical) (hb : b.Canonical)
    (hma : m.Says a) (hmb : m.Says b) : a = b := by
  cases a with
  | integer i =>
    cases b with
    | integer j => exact congrArg Number.integer (hma.2.trans hmb.2.symm)
    | float y => exact absurd hmb.1 hma.1
  | float x =>
    cases b with
    | integer j => exact absurd hma.1 hmb.1
    | float y =>
      obtain ⟨-, hsign, hvalue⟩ := hma
      obtain ⟨-, hsign', hvalue'⟩ := hmb
      exact congrArg Number.float
        (Binary64.eq_of_value_shortest ha hb (hsign.symm.trans hsign') (hvalue.symm.trans hvalue'))

end Numeral

namespace Number

private theorem exists_written_integer (i : Int) :
    ∃ m : Numeral, m.Proper ∧ m.written = (integer i).chars ∧ m.Says (.integer i) := by
  refine ⟨⟨i < 0, Nat.toDigits 10 i.natAbs, none, none⟩,
    ⟨digits_toDigits _, fun hhead => ?_, by simp, by simp⟩, ?_, by simp [Numeral.IsFloat], ?_⟩
  · have hzero : i.natAbs = 0 := by
      by_contra hne
      exact head?_toDigits_ne hne hhead
    rw [hzero, Nat.toDigits_zero]
  · simp [Numeral.written, Numeral.unsignedChars, Numeral.fractionChars, Numeral.exponentChars, chars]
  · simp only [decide_eq_true_eq, digitsValue_toDigits]
    omega

private theorem exists_written_float {x : Binary64} (hx : x.Canonical) :
    ∃ m : Numeral, m.Proper ∧ m.written = x.numeral ∧ m.Says (.float x) := by
  have hlayout : ∀ text, x.shortest.WrittenAs text →
      ∃ m : Numeral, m.Proper ∧ m.written = x.signed text ∧ m.Says (.float x) := by
    intro text htext
    obtain ⟨m, hm, hnegative, hchars, hmagnitude, hfloat⟩ := htext x.negative
    refine ⟨m, hm, ?_, hfloat, hnegative, hmagnitude⟩
    rw [Numeral.written, Binary64.signed, hnegative, hchars]
  rw [Binary64.numeral]
  split
  · exact hlayout _ (Decimal.writtenAs_positional (Binary64.exponent_shortest_of_digits hx))
  · exact hlayout _ (Decimal.writtenAs_scientific _)

/-- The text of a number is a numeral that says the number. -/
theorem exists_written {n : Number} (hn : n.Canonical) :
    ∃ m : Numeral, m.Proper ∧ m.written = n.chars ∧ m.Says n := by
  cases n with
  | integer i => exact exists_written_integer i
  | float x => exact exists_written_float hn

/-- Numbers of one text are equal. -/
theorem eq_of_chars {a b : Number} (ha : a.Canonical) (hb : b.Canonical) (h : a.chars = b.chars) :
    a = b := by
  obtain ⟨m, hm, hwritten, hsays⟩ := exists_written ha
  obtain ⟨n, hn, hwritten', hsays'⟩ := exists_written hb
  obtain rfl := Numeral.written_inj hm hn (by rw [hwritten, hwritten', h])
  exact hsays.unique ha hb hsays'

theorem toldApart_of_canonical {ms ns : List Number} (hms : ∀ m ∈ ms, m.Canonical)
    (hns : ∀ n ∈ ns, n.Canonical) : ToldApart ms ns :=
  fun m hm n hn => eq_of_chars (hms m hm) (hns n hn)

end Number

end ClassSchema
