import ClassSchema.Proofs.Artifact.Directive
import ClassSchema.Proofs.Artifact.FileName
import ClassSchema.Proofs.Artifact.Literal
import ClassSchema.Proofs.Value.Distinct
import ClassSchema.Proofs.Value.Written

/-!
# Literals tell defaults apart

The literal of a default says which value it is, but for two things that are written as they are: a
string in a position of an enum, which may be the word for null or for a truth value, and the keys of
a table, which may hold what separates a key from its value.
-/

namespace ClassSchema

open Value (Closes closes_cons quoted)

namespace Artifact

variable {s : Schema} {type base : String} {v w : Value} {r r' : List Char}

/-! ### Words -/

/-- The words that stand for null and the truth values. -/
def literalWords : List String := ["null", "true", "false"]

/-- The word that a value is written as in a position of a base type. -/
def word? (s : Schema) (base : String) : Value → Option String
  | .null => some "null"
  | .bool true => some "true"
  | .bool false => some "false"
  | .string t => if isBare s base t then some t else none
  | _ => none

theorem isGraphName_of_isBare {t : String} (h : isBare s base t = true) : isGraphName t = true := by
  rw [isBare] at h
  split at h
  · exact h
  · cases h

theorem word?_string_eq_some {t x : String} (h : word? s base (.string t) = some x) :
    isBare s base t = true ∧ t = x := by
  rw [word?] at h
  split at h
  · next hbare => exact ⟨hbare, Option.some.inj h⟩
  · cases h

theorem isGraphName_of_word? {x : String} (h : word? s base v = some x) : isGraphName x = true := by
  cases v with
  | null => obtain rfl := Option.some.inj h; decide
  | bool b => cases b <;> · obtain rfl := Option.some.inj h; decide
  | string t =>
    obtain ⟨hbare, rfl⟩ := word?_string_eq_some h
    exact isGraphName_of_isBare hbare
  | _ => cases h

theorem literal_of_word? {x : String} (h : word? s (baseType type) v = some x) :
    literal s type v = x.toList := by
  cases v with
  | null => obtain rfl := Option.some.inj h; rfl
  | bool b => cases b <;> · obtain rfl := Option.some.inj h; rfl
  | string t =>
    obtain ⟨hbare, rfl⟩ := word?_string_eq_some h
    rw [literal, if_pos hbare]
  | _ => cases h

private theorem Closes.not_isNameChar (h : Closes r) : ∀ c ∈ r.head?, ¬ isNameChar c = true := by
  intro c hc
  rcases h c hc with rfl | rfl | rfl <;> decide

theorem word_append_inj {x y : String} (hx : isGraphName x = true) (hy : isGraphName y = true)
    (hr : Closes r) (hr' : Closes r') (h : x.toList ++ r = y.toList ++ r') : x = y ∧ r = r' := by
  obtain ⟨hxy, hrest⟩ := append_inj_of_forall (isNameChar_of_isGraphName hx).2
    (isNameChar_of_isGraphName hy).2 (Closes.not_isNameChar hr) (Closes.not_isNameChar hr') h
  exact ⟨String.toList_inj.mp hxy, hrest⟩

/-! ### Openings -/

/-- What a literal can begin with. -/
inductive Opening where
  | word
  | mark
  | quote
  | bracket
  | brace
  | other
deriving DecidableEq

/-- What a character begins. -/
def Opening.of (c : Char) : Opening :=
  if isDigit c ∨ c = '-' then .mark
  else if isNameStart c then .word
  else if c = '"' then .quote
  else if c = '[' then .bracket
  else if c = '{' then .brace
  else .other

/-- What the literal of a value begins with. -/
def opener (s : Schema) (base : String) : Value → Opening
  | .null | .bool _ => .word
  | .number _ => .mark
  | .string t => if isBare s base t then .word else .quote
  | .list _ => .bracket
  | .table _ => .brace

/-- What a message calls the values that begin so, words apart. -/
def Opening.sortName : Opening → String
  | .mark => "number"
  | .quote => "string"
  | .bracket => "list"
  | .brace => "object"
  | .word | .other => ""

theorem sortName_opener (h : opener s base v ≠ .word) :
    (opener s base v).sortName = v.sortName := by
  cases v with
  | null => exact absurd rfl h
  | bool b => exact absurd rfl h
  | string t =>
    rw [opener] at h ⊢
    split
    · next hbare => exact absurd (if_pos hbare) h
    · rfl
  | _ => rfl

theorem opener_ne_other (s : Schema) (base : String) (v : Value) : opener s base v ≠ .other := by
  cases v with
  | string t => by_cases h : isBare s base t <;> simp [opener, h]
  | _ => simp [opener]

theorem opener_eq_word_iff : opener s base v = .word ↔ ∃ x, word? s base v = some x := by
  cases v with
  | bool b => cases b <;> simp [opener, word?]
  | string t => by_cases h : isBare s base t <;> simp [opener, word?, h]
  | _ => simp [opener, word?]

private theorem Opening.of_number {n : Number} {c : Char} (h : c ∈ n.chars.head?) :
    Opening.of c = .mark := by
  rw [Opening.of, if_pos (n.head_chars c h)]

private theorem Opening.of_isNameStart {c : Char} (h : isNameStart c = true) :
    Opening.of c = .word := by
  have hall : ∀ n < 128, isNameStart (Char.ofNat n) = true → Opening.of (Char.ofNat n) = .word := by
    decide +kernel
  have hc := hall c.toNat (toNat_lt_of_isNameChar (isNameChar_of_isNameStart h))
  rw [Char.ofNat_toNat] at hc
  exact hc h

theorem opener_literal (s : Schema) (type : String) (v : Value) :
    ∃ c t, literal s type v = c :: t ∧ Opening.of c = opener s (baseType type) v := by
  cases v with
  | null => exact ⟨'n', _, rfl, by rfl⟩
  | bool b => cases b <;> exact ⟨_, _, rfl, by rfl⟩
  | number n =>
    obtain ⟨c, t, hn⟩ := List.exists_cons_of_ne_nil n.chars_ne_nil
    exact ⟨c, t, hn, Opening.of_number (by rw [hn]; rfl)⟩
  | string t =>
    by_cases hbare : isBare s (baseType type) t = true
    · have hname := isGraphName_of_isBare hbare
      rw [literal, opener, if_pos hbare, if_pos hbare]
      rw [isGraphName] at hname
      split at hname
      · cases hname
      · next c cs hchars =>
        have hstart : isNameStart c = true := (Bool.and_eq_true_iff.mp hname).1
        exact ⟨c, cs, hchars, Opening.of_isNameStart hstart⟩
    · rw [literal, opener, if_neg hbare, if_neg hbare]
      exact ⟨_, _, rfl, by rfl⟩
  | list items => exact ⟨_, _, rfl, by rfl⟩
  | table d => exact ⟨_, _, rfl, by rfl⟩

theorem literal_of_ne_word {t : String} (h : opener s (baseType type) (.string t) ≠ .word) :
    literal s type (.string t) = quoted t.toList := by
  rw [literal, if_neg fun hbare => h (if_pos hbare)]

theorem opener_eq (h : literal s type v ++ r = literal s type w ++ r') :
    opener s (baseType type) v = opener s (baseType type) w := by
  obtain ⟨c, t, hv, hc⟩ := opener_literal s type v
  obtain ⟨d, u, hw, hd⟩ := opener_literal s type w
  rw [hv, hw] at h
  rw [← hc, ← hd, (List.cons.inj h).1]

theorem opener_ne_other_of_literal {c : Char} {t : List Char} (h : literal s type v ++ r = c :: t) :
    Opening.of c ≠ .other := by
  obtain ⟨d, u, hv, hd⟩ := opener_literal s type v
  rw [hv] at h
  rw [← (List.cons.inj h).1, hd]
  exact opener_ne_other s _ v

/-! ### Values that their literals tell apart -/

/-- A key that ends where its separator begins, and that does not begin like the end of a table. -/
def PlainKey (key : String) : Prop := ¬ [':', ' '] <:+: key.toList ∧ key.toList.head? ≠ some '}'

theorem plainKey_of_isGraphName {key : String} (h : isGraphName key = true) : PlainKey key := by
  refine ⟨fun hseparator => ?_, fun hhead => ?_⟩
  · exact not_mem_of_isGraphName h (by decide) (hseparator.subset (a := ':') (by decide))
  · exact not_mem_of_isGraphName h (by decide) (List.mem_of_mem_head? hhead)

mutual

/-- Whether no bare string of a value in a position of a type is a word for null or a truth value, and
all keys are plain. -/
def Unmistakable (s : Schema) (type : String) : Value → Prop
  | .string t => isBare s (baseType type) t = true → t ∉ literalWords
  | .list items => UnmistakableItems s (baseType type) items
  | .table ⟨entries⟩ => UnmistakableEntries s (baseType type) entries
  | _ => True

def UnmistakableItems (s : Schema) (base : String) : List Value → Prop
  | [] => True
  | v :: vs => Unmistakable s base v ∧ UnmistakableItems s base vs

def UnmistakableEntries (s : Schema) (base : String) : List (String × Value) → Prop
  | [] => True
  | (key, v) :: es =>
    PlainKey key ∧ Unmistakable s (fieldTypeIn s base key) v ∧ UnmistakableEntries s base es

end

/-- The value that a word stands for, unless a string is meant. -/
def ofWord (x : String) : Value :=
  if x = "null" then .null
  else if x = "true" then .bool true
  else if x = "false" then .bool false
  else .string x

theorem eq_ofWord {x : String} (hv : Unmistakable s type v) (hx : word? s (baseType type) v = some x) :
    v = ofWord x := by
  cases v with
  | null => obtain rfl := Option.some.inj hx; rfl
  | bool b => cases b <;> · obtain rfl := Option.some.inj hx; rfl
  | string t =>
    obtain ⟨hbare, rfl⟩ := word?_string_eq_some hx
    have hword := hv hbare
    simp only [literalWords, List.mem_cons, List.not_mem_nil, or_false, not_or] at hword
    rw [ofWord, if_neg hword.1, if_neg hword.2.1, if_neg hword.2.2]
  | _ => cases hx

theorem mem_literalWords_of_word? {x : String} (hx : word? s base v = some x) (hv : v ≠ .string x) :
    x ∈ literalWords := by
  cases v with
  | null => obtain rfl := Option.some.inj hx; decide
  | bool b => cases b <;> · obtain rfl := Option.some.inj hx; decide
  | string t =>
    obtain ⟨-, rfl⟩ := word?_string_eq_some hx
    exact absurd rfl hv
  | _ => cases hx

private theorem eq_nil_of_key_append {k l a r r' : List Char} (hl : ¬ [':', ' '] <:+: l)
    (hla : l = k ++ a) (h : ':' :: ' ' :: r = a ++ ':' :: ' ' :: r') : a = [] := by
  cases a with
  | nil => rfl
  | cons c a =>
    obtain ⟨hc, htail⟩ := List.cons.inj h
    cases a with
    | nil => exact absurd (List.cons.inj htail).1 (by decide)
    | cons d a =>
      have hd := (List.cons.inj htail).1
      exact absurd ⟨k, a, by rw [hla, hc, hd]; simp⟩ hl

theorem key_append_inj {k l : String} (hk : PlainKey k) (hl : PlainKey l)
    (h : k.toList ++ ':' :: ' ' :: r = l.toList ++ ':' :: ' ' :: r') : k = l ∧ r = r' := by
  have hkl : k.toList = l.toList := by
    rcases List.append_eq_append_iff.mp h with ⟨a, hla, ha⟩ | ⟨a, hka, ha⟩
    · rw [hla, eq_nil_of_key_append hl.1 hla ha, List.append_nil]
    · rw [hka, eq_nil_of_key_append hk.1 hka ha, List.append_nil]
  rw [hkl] at h
  have hrest := List.append_cancel_left h
  exact ⟨String.toList_inj.mp hkl, (List.cons.inj (List.cons.inj hrest).2).2⟩

theorem brace_ne_key_append {k : String} (hk : PlainKey k) : '}' :: r ≠ k.toList ++ ':' :: r' := by
  intro h
  cases hchars : k.toList with
  | nil =>
    rw [hchars] at h
    exact absurd (List.cons.inj h).1 (by decide)
  | cons c cs =>
    rw [hchars] at h
    exact hk.2 (by rw [hchars, (List.cons.inj h).1]; rfl)

/-! ### Literals -/

private theorem literalItems_cons_append (s : Schema) (base : String) (v : Value) (vs : List Value)
    (r : List Char) :
    ∃ t, literalItems s base (v :: vs) ++ ']' :: r = literal s base v ++ t ∧ Closes t ∧
      (vs = [] ∧ t = ']' :: r ∨ vs ≠ [] ∧ t = ',' :: ' ' :: (literalItems s base vs ++ ']' :: r)) := by
  cases vs with
  | nil => exact ⟨_, rfl, closes_cons r (by decide), .inl ⟨rfl, rfl⟩⟩
  | cons w ws =>
    refine ⟨_, ?_, closes_cons (' ' :: (literalItems s base (w :: ws) ++ ']' :: r)) (.inl rfl),
      .inr ⟨by simp, rfl⟩⟩
    simp [literalItems]

private theorem literalEntries_cons_append (s : Schema) (base k : String) (v : Value)
    (es : List (String × Value)) (r : List Char) :
    ∃ t, literalEntries s base ((k, v) :: es) ++ '}' :: r =
        k.toList ++ ':' :: ' ' :: (literal s (fieldTypeIn s base k) v ++ t) ∧ Closes t ∧
      (es = [] ∧ t = '}' :: r ∨ es ≠ [] ∧ t = ',' :: ' ' :: (literalEntries s base es ++ '}' :: r)) := by
  cases es with
  | nil => exact ⟨_, by simp [literalEntries], closes_cons r (by decide), .inl ⟨rfl, rfl⟩⟩
  | cons e es =>
    refine ⟨_, ?_, closes_cons (' ' :: (literalEntries s base (e :: es) ++ '}' :: r)) (.inl rfl),
      .inr ⟨by simp, rfl⟩⟩
    simp [literalEntries]

private theorem rest_cases {t t' x y r r' : List Char} {c : Char} (hc : c ≠ ',') {p q : Prop}
    (ht : p ∧ t = c :: r ∨ ¬ p ∧ t = ',' :: ' ' :: x) (ht' : q ∧ t' = c :: r' ∨ ¬ q ∧ t' = ',' :: ' ' :: y)
    (h : t = t') : p ∧ q ∧ r = r' ∨ ¬ p ∧ ¬ q ∧ x = y := by
  rcases ht with ⟨hp, rfl⟩ | ⟨hp, rfl⟩
  · rcases ht' with ⟨hq, rfl⟩ | ⟨hq, rfl⟩
    · exact .inl ⟨hp, hq, (List.cons.inj h).2⟩
    · exact absurd (List.cons.inj h).1 hc
  · rcases ht' with ⟨hq, rfl⟩ | ⟨hq, rfl⟩
    · exact absurd (List.cons.inj h).1.symm hc
    · exact .inr ⟨hp, hq, (List.cons.inj (List.cons.inj h).2).2⟩

mutual

/-- No literal is the beginning of another one in the same position, both followed as in a list. -/
theorem literal_append_inj (s : Schema) (type : String) (v w : Value) (hv : Unmistakable s type v)
    (hw : Unmistakable s type w) {r r' : List Char} (hr : Closes r) (hr' : Closes r')
    (h : literal s type v ++ r = literal s type w ++ r') : v.chars = w.chars ∧ r = r' := by
  have hopener := opener_eq h
  by_cases hword : opener s (baseType type) v = .word
  · obtain ⟨x, hx⟩ := opener_eq_word_iff.mp hword
    obtain ⟨y, hy⟩ := opener_eq_word_iff.mp (hopener ▸ hword)
    rw [literal_of_word? hx, literal_of_word? hy] at h
    obtain ⟨rfl, hrest⟩ := word_append_inj (isGraphName_of_word? hx) (isGraphName_of_word? hy) hr hr' h
    rw [eq_ofWord hv hx, eq_ofWord hw hy]
    exact ⟨rfl, hrest⟩
  · have hword' : opener s (baseType type) w ≠ .word := hopener ▸ hword
    have hsort : v.sortName = w.sortName := by
      rw [← sortName_opener hword, ← sortName_opener hword', hopener]
    cases v with
    | null => exact absurd rfl hword
    | bool b => exact absurd rfl hword
    | number m =>
      cases w with
      | number n =>
        exact append_inj_of_forall (fun _ => Number.isMark_of_mem_chars)
          (fun _ => Number.isMark_of_mem_chars) hr.not_isMark hr'.not_isMark h
      | _ => exact absurd hsort (by simp [Value.sortName])
    | string t =>
      cases w with
      | string u =>
        rw [literal_of_ne_word hword, literal_of_ne_word hword'] at h
        obtain ⟨htu, hrest⟩ := Value.quoted_append_inj h
        exact ⟨by rw [Value.chars, Value.chars, htu], hrest⟩
      | _ => exact absurd hsort (by simp [Value.sortName])
    | list vs =>
      cases w with
      | list ws =>
        have hin : literalItems s (baseType type) vs ++ ']' :: r =
            literalItems s (baseType type) ws ++ ']' :: r' := by simpa [literal] using h
        obtain ⟨hitems, hrest⟩ := literalItems_append_inj s (baseType type) vs ws hv hw hin
        exact ⟨by rw [Value.chars, Value.chars, Value.itemChars_congr hitems], hrest⟩
      | _ => exact absurd hsort (by simp [Value.sortName])
    | table d =>
      obtain ⟨es⟩ := d
      cases w with
      | table e =>
        obtain ⟨fs⟩ := e
        have hin : literalEntries s (baseType type) es ++ '}' :: r =
            literalEntries s (baseType type) fs ++ '}' :: r' := by simpa [literal] using h
        obtain ⟨hentries, hrest⟩ := literalEntries_append_inj s (baseType type) es fs hv hw hin
        exact ⟨by rw [Value.chars, Value.chars, Value.entryChars_congr hentries], hrest⟩
      | _ => exact absurd hsort (by simp [Value.sortName])

theorem literalItems_append_inj (s : Schema) (base : String) (vs ws : List Value)
    (hv : UnmistakableItems s base vs) (hw : UnmistakableItems s base ws) {r r' : List Char}
    (h : literalItems s base vs ++ ']' :: r = literalItems s base ws ++ ']' :: r') :
    vs.map Value.chars = ws.map Value.chars ∧ r = r' := by
  cases vs with
  | nil =>
    cases ws with
    | nil => exact ⟨rfl, by simpa [literalItems] using h⟩
    | cons w ws =>
      obtain ⟨t, ht, -, -⟩ := literalItems_cons_append s base w ws r'
      exact absurd rfl (opener_ne_other_of_literal (ht ▸ h).symm)
  | cons v vs =>
    obtain ⟨t, ht, hclose, hcase⟩ := literalItems_cons_append s base v vs r
    cases ws with
    | nil => exact absurd rfl (opener_ne_other_of_literal (ht ▸ h))
    | cons w ws =>
      obtain ⟨t', ht', hclose', hcase'⟩ := literalItems_cons_append s base w ws r'
      obtain ⟨hhead, hrest⟩ := literal_append_inj s base v w hv.1 hw.1 hclose hclose' (ht ▸ ht' ▸ h)
      rcases rest_cases (by decide) hcase hcase' hrest with ⟨rfl, rfl, hend⟩ | ⟨-, -, hmore⟩
      · exact ⟨by rw [List.map_cons, List.map_cons, hhead], hend⟩
      · obtain ⟨htail, hend⟩ := literalItems_append_inj s base vs ws hv.2 hw.2 hmore
        exact ⟨by rw [List.map_cons, List.map_cons, hhead, htail], hend⟩

theorem literalEntries_append_inj (s : Schema) (base : String) (es fs : List (String × Value))
    (he : UnmistakableEntries s base es) (hf : UnmistakableEntries s base fs) {r r' : List Char}
    (h : literalEntries s base es ++ '}' :: r = literalEntries s base fs ++ '}' :: r') :
    es.map (fun e => (e.1, e.2.chars)) = fs.map (fun f => (f.1, f.2.chars)) ∧ r = r' := by
  cases es with
  | nil =>
    cases fs with
    | nil => exact ⟨rfl, by simpa [literalEntries] using h⟩
    | cons f fs =>
      obtain ⟨t, ht, -, -⟩ := literalEntries_cons_append s base f.1 f.2 fs r'
      exact absurd (h.trans ht) (brace_ne_key_append hf.1)
  | cons e es =>
    obtain ⟨k, v⟩ := e
    obtain ⟨t, ht, hclose, hcase⟩ := literalEntries_cons_append s base k v es r
    cases fs with
    | nil => exact absurd (h.symm.trans ht) (brace_ne_key_append he.1)
    | cons f fs =>
      obtain ⟨l, w⟩ := f
      obtain ⟨t', ht', hclose', hcase'⟩ := literalEntries_cons_append s base l w fs r'
      rw [ht, ht'] at h
      obtain ⟨rfl, hvalue⟩ := key_append_inj he.1 hf.1 h
      obtain ⟨hhead, hrest⟩ :=
        literal_append_inj s (fieldTypeIn s base k) v w he.2.1 hf.2.1 hclose hclose' hvalue
      rcases rest_cases (by decide) hcase hcase' hrest with ⟨rfl, rfl, hend⟩ | ⟨-, -, hmore⟩
      · exact ⟨by rw [List.map_cons, List.map_cons, hhead], hend⟩
      · obtain ⟨htail, hend⟩ := literalEntries_append_inj s base es fs he.2.2 hf.2.2 hmore
        exact ⟨by rw [List.map_cons, List.map_cons, hhead, htail], hend⟩

end

/-- A bare string meets another value just where it is a word. -/
theorem exists_ne_literal_string_iff (s : Schema) (type t : String) :
    (∃ w, w ≠ .string t ∧ literal s type w = literal s type (.string t)) ↔
      isBare s (baseType type) t = true ∧ t ∈ literalWords := by
  constructor
  · rintro ⟨w, hne, h⟩
    have hopener : opener s (baseType type) w = opener s (baseType type) (.string t) :=
      opener_eq (congrArg (· ++ []) h)
    by_cases hword : opener s (baseType type) (.string t) = .word
    · obtain ⟨x, hx⟩ := opener_eq_word_iff.mp hword
      obtain ⟨y, hy⟩ := opener_eq_word_iff.mp (hopener.trans hword)
      obtain ⟨hbare, rfl⟩ := word?_string_eq_some hx
      rw [literal_of_word? hx, literal_of_word? hy] at h
      obtain rfl := String.toList_inj.mp h
      exact ⟨hbare, mem_literalWords_of_word? hy hne⟩
    · have hsort : w.sortName = "string" := by
        rw [← sortName_opener (hopener ▸ hword), hopener, sortName_opener hword, Value.sortName]
      cases w with
      | string u =>
        rw [literal_of_ne_word hword, literal_of_ne_word (hopener ▸ hword)] at h
        exact absurd (congrArg Value.string (String.toList_inj.mp (Value.quoted_inj h))) hne
      | _ => exact absurd hsort (by simp [Value.sortName])
  · rintro ⟨hbare, hmem⟩
    have hstring : literal s type (.string t) = t.toList := by rw [literal, if_pos hbare]
    simp only [literalWords, List.mem_cons, List.not_mem_nil, or_false] at hmem
    rcases hmem with rfl | rfl | rfl
    · exact ⟨.null, by simp, by rw [hstring]; rfl⟩
    · exact ⟨.bool true, by simp, by rw [hstring]; rfl⟩
    · exact ⟨.bool false, by simp, by rw [hstring]; rfl⟩

/-- In one position of one schema, values that are not mistaken for others are told apart by their
literals. Of the strings only the words for null and the truth values are mistaken, where they stand
bare. -/
theorem literal_tells_values (s : Schema) (type : String) :
    (∀ v w, Unmistakable s type v → Unmistakable s type w → (∀ n ∈ v.numbers, n.Canonical) →
      (∀ n ∈ w.numbers, n.Canonical) → (literal s type v = literal s type w ↔ v = w)) ∧
    ∀ t, (∃ w, w ≠ .string t ∧ literal s type w = literal s type (.string t)) ↔
      isBare s (baseType type) t = true ∧ t ∈ literalWords := by
  refine ⟨fun v w hv hw hvn hwn => ⟨fun h => ?_, congrArg _⟩, exists_ne_literal_string_iff s type⟩
  have hend : Closes [] := by simp [Closes]
  have hchars := (literal_append_inj s type v w hv hw hend hend (by rw [h])).1
  exact Value.eq_of_chars v w (Number.toldApart_of_canonical hvn hwn) hchars

/-- An enum, and an input with a list of it and a number. -/
def statusSchema : Schema where
  name := "default"
  definitions := .ofList [("Status", .enum ⟨"Status", none, []⟩),
    ("Filter", .input ⟨"Filter", none, .ofList [("any", ⟨"any", "[Status!]", none, none⟩),
      ("ratio", ⟨"ratio", "Float", none, none⟩)]⟩)]

/-- A filter with two statuses and a ratio of one and a half. -/
def filterValue (second : Value) : Value :=
  .table ⟨[("any", .list [.string "OPEN", second]),
    ("ratio", .number (.float ⟨false, 3 * (Binary64.leastFull / 2), -52⟩))]⟩

theorem unmistakable_filterValue {second : Value} (h : Unmistakable statusSchema "Status" second) :
    Unmistakable statusSchema "Filter" (filterValue second) := by
  have hbase : baseType (fieldTypeIn statusSchema (baseType "Filter") "any") = "Status" := by
    decide +kernel
  have hopen : Unmistakable statusSchema "Status" (.string "OPEN") := fun _ => by decide
  refine ⟨plainKey_of_isGraphName (by decide), ?_, plainKey_of_isGraphName (by decide), trivial, trivial⟩
  show UnmistakableItems statusSchema (baseType (fieldTypeIn statusSchema (baseType "Filter") "any"))
    [.string "OPEN", second]
  rw [hbase]
  exact ⟨hopen, h, trivial⟩

/-- A null among the statuses of a filter is told from a status. -/
theorem literal_filterValue_ne :
    Unmistakable statusSchema "Filter" (filterValue .null) ∧
    Unmistakable statusSchema "Filter" (filterValue (.string "CLOSED")) ∧
    (∀ n ∈ (filterValue .null).numbers, n.Canonical) ∧
    (∀ n ∈ (filterValue (.string "CLOSED")).numbers, n.Canonical) ∧
    literal statusSchema "Filter" (filterValue .null) ≠
      literal statusSchema "Filter" (filterValue (.string "CLOSED")) := by
  have hnull : Unmistakable statusSchema "Filter" (filterValue .null) :=
    unmistakable_filterValue trivial
  have hclosed : Unmistakable statusSchema "Filter" (filterValue (.string "CLOSED")) :=
    unmistakable_filterValue fun _ => by decide
  have hcanonical : ∀ n ∈ (filterValue .null).numbers, n.Canonical := by decide +kernel
  have hcanonical' : ∀ n ∈ (filterValue (.string "CLOSED")).numbers, n.Canonical := by decide +kernel
  refine ⟨hnull, hclosed, hcanonical, hcanonical', fun h => ?_⟩
  have heq := ((literal_tells_values statusSchema "Filter").1 _ _ hnull hclosed hcanonical
    hcanonical').mp h
  exact absurd (congrArg Value.text heq) (by decide +kernel)

/-- The status with the name of a truth value is written as the truth value, and one key with a
separator in it as two keys. -/
theorem literal_collisions :
    (Value.string "true" ≠ .bool true ∧
      literal statusSchema "Status!" (.string "true") = literal statusSchema "Status!" (.bool true)) ∧
    (Value.table ⟨[("a: 1, b", .integer 2)]⟩ ≠ .table ⟨[("a", .integer 1), ("b", .integer 2)]⟩ ∧
      literal statusSchema "Scalar" (.table ⟨[("a: 1, b", .integer 2)]⟩) =
        literal statusSchema "Scalar" (.table ⟨[("a", .integer 1), ("b", .integer 2)]⟩)) := by
  refine ⟨⟨by simp, by decide +kernel⟩, by simp, by decide +kernel⟩

end Artifact

end ClassSchema
