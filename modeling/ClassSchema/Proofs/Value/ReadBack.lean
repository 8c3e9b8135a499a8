import ClassSchema.Proofs.Value.Datum
import ClassSchema.Proofs.Value.Layout
import ClassSchema.Proofs.Value.Numeral
import ClassSchema.Proofs.Value.Quoted
import Mathlib.Data.List.TakeWhile

/-!
# Reading values back

A value reads back from its text in any layout, if its numbers do.
-/

namespace ClassSchema

namespace Value

mutual

/-- The numbers in a value. -/
def numbers : Value → List Number
  | .number n => [n]
  | .list items => itemNumbers items
  | .table ⟨entries⟩ => entryNumbers entries
  | _ => []

def itemNumbers : List Value → List Number
  | [] => []
  | v :: vs => v.numbers ++ itemNumbers vs

def entryNumbers : List (String × Value) → List Number
  | [] => []
  | (_, v) :: es => v.numbers ++ entryNumbers es

end

theorem entryNumbers_eq_nil {es : List (String × Value)} (h : ∀ e ∈ es, e.2.numbers = []) :
    entryNumbers es = [] := by
  induction es with
  | nil => rfl
  | cons e es ih =>
    rw [entryNumbers, h e List.mem_cons_self, ih fun f hf => h f (List.mem_cons_of_mem _ hf)]
    rfl

end Value

namespace Datum

open Value (itemNumbers entryNumbers)

theorem skipSpace_append {w : List Char} (hw : ∀ c ∈ w, isSpace c = true) (r : List Char) :
    skipSpace (w ++ r) = skipSpace r := by
  rw [skipSpace, List.dropWhile_append_of_pos hw]
  rfl

theorem skipSpace_cons {c : Char} (hc : isSpace c = false) (r : List Char) :
    skipSpace (c :: r) = c :: r := by
  rw [skipSpace, List.dropWhile_cons_of_neg (by simp [hc])]

variable (l : Layout)

theorem exists_chars_eq_cons (depth : Nat) (v : Value) :
    ∃ c s, l.chars depth v = c :: s ∧ isSpace c = false ∧ c ≠ ']' ∧ c ≠ '}' := by
  cases v with
  | number n =>
    cases hn : n.chars with
    | nil => exact absurd hn n.chars_ne_nil
    | cons c s =>
      have hmem : c ∈ n.chars := by simp [hn]
      have hmark := Number.isMark_of_mem_chars hmem
      refine ⟨c, s, hn, ?_, ?_, ?_⟩
      · by_contra hspace
        rw [Bool.not_eq_false, isSpace, decide_eq_true_iff] at hspace
        rcases hspace with rfl | rfl | rfl | rfl <;> exact absurd hmark (by decide)
      · rintro rfl
        exact absurd hmark (by decide)
      · rintro rfl
        exact absurd hmark (by decide)
  | list items => cases items <;> exact ⟨_, _, rfl, by decide, by decide, by decide⟩
  | table fields =>
    obtain ⟨entries⟩ := fields
    cases entries <;> exact ⟨_, _, rfl, by decide, by decide, by decide⟩
  | bool b => cases b <;> exact ⟨_, _, rfl, by decide, by decide, by decide⟩
  | _ => exact ⟨_, _, rfl, by decide, by decide, by decide⟩

theorem skipSpace_chars {w : List Char} (hw : ∀ c ∈ w, isSpace c = true) (depth : Nat) (v : Value)
    (r : List Char) : skipSpace (w ++ (l.chars depth v ++ r)) = l.chars depth v ++ r := by
  obtain ⟨c, s, hs, hspace, -⟩ := exists_chars_eq_cons l depth v
  rw [skipSpace_append hw, hs, List.cons_append, skipSpace_cons hspace]

/-- The value at a depth is read, whatever follows it. -/
def Reads (depth : Nat) (v : Value) : Prop :=
  ∀ fuel rest, Numeral.Ends rest → (l.chars depth v).length ≤ fuel →
    read fuel (l.chars depth v ++ rest) = some (ofValue v, rest)

theorem read_mark {c : Char} (h : Number.IsMark c) (fuel : Nat) (s : List Char) :
    read (fuel + 1) (c :: s) = (Numeral.read (c :: s)).map fun p => (ofNumeral p.1, p.2) := by
  have hne {d : Char} (hd : ¬ Number.IsMark d) : c ≠ d := by
    rintro rfl
    exact hd h
  have hn : c ≠ 'n' := hne (by decide)
  have ht : c ≠ 't' := hne (by decide)
  have hf : c ≠ 'f' := hne (by decide)
  have hquote : c ≠ '"' := hne (by decide)
  have hlist : c ≠ '[' := hne (by decide)
  have htable : c ≠ '{' := hne (by decide)
  rw [read]
  · cases Numeral.read (c :: s) <;> rfl
  all_goals simp [hn, ht, hf, hquote, hlist, htable]

theorem reads_number (depth : Nat) {n : Number} (hn : n.ReadsBack) : Reads l depth (.number n) := by
  intro fuel rest hrest hfuel
  show read fuel (n.chars ++ rest) = some (.number n, rest)
  obtain ⟨m, hread, hnumber⟩ := Numeral.read_chars hn hrest
  cases hchars : n.chars with
  | nil => exact absurd hchars n.chars_ne_nil
  | cons c s =>
    have hmem : c ∈ n.chars := by simp [hchars]
    have hpos : 0 < fuel := by
      have hlength : (n.chars).length ≤ fuel := hfuel
      rw [hchars, List.length_cons] at hlength
      omega
    obtain ⟨fuel, rfl⟩ := Nat.exists_eq_succ_of_ne_zero hpos.ne'
    rw [hchars] at hread
    rw [List.cons_append, read_mark (Number.isMark_of_mem_chars hmem), ← List.cons_append, hread]
    simp [ofNumeral, hnumber]

theorem reads_string (depth : Nat) (s : String) : Reads l depth (.string s) := by
  intro fuel rest hrest hfuel
  show read fuel (Value.quoted s.toList ++ rest) = some (.string s, rest)
  have hlength : (Value.quoted s.toList).length ≤ fuel := hfuel
  obtain ⟨ps, hread, hchars⟩ := readString_escaped s.toList rest
  rw [Value.quoted_append]
  cases fuel with
  | zero => simp [Value.quoted] at hlength
  | succ fuel => simp [read, hread, ofPieces, pieceText?, hchars]

theorem ends_append {w r : List Char} (hw : ∀ c ∈ w, isSpace c = true) (hr : Numeral.Ends r) :
    Numeral.Ends (w ++ r) := by
  cases w with
  | nil => exact hr
  | cons c w =>
    have hc := hw c List.mem_cons_self
    rw [isSpace, decide_eq_true_iff] at hc
    refine Numeral.ends_cons ?_
    rcases hc with rfl | rfl | rfl | rfl <;> decide

theorem readItems_chars {depth : Nat} {w : List Char} (hw : ∀ c ∈ w, isSpace c = true)
    (rest : List Char) {v : Value} {vs : List Value} (hvs : ∀ u ∈ v :: vs, Reads l depth u)
    {fuel : Nat} (hfuel : (l.chars depth v ++ l.moreItems depth vs).length < fuel) :
    readItems fuel (l.chars depth v ++ (l.moreItems depth vs ++ (w ++ ']' :: rest))) =
      some (ofValue v :: ofItems vs, rest) := by
  induction vs generalizing v fuel with
  | nil =>
    cases fuel with
    | zero => omega
    | succ fuel =>
      have hends : Numeral.Ends (w ++ ']' :: rest) :=
        ends_append hw (Numeral.ends_cons (by decide))
      have hlength : (l.chars depth v).length ≤ fuel := by
        rw [List.length_append] at hfuel
        omega
      rw [Layout.moreItems, List.nil_append, readItems, hvs v List.mem_cons_self fuel _ hends hlength]
      simp [skipSpace_append hw, skipSpace_cons, isSpace, ofItems]
  | cons u us ih =>
    cases fuel with
    | zero => omega
    | succ fuel =>
      rw [List.length_append, Layout.moreItems, List.length_append, List.length_cons,
        List.length_append] at hfuel
      have hshort : (l.chars depth u ++ l.moreItems depth us).length < fuel := by
        rw [List.length_append]
        omega
      have hmore := ih (fun x hx => hvs x (List.mem_cons_of_mem _ hx)) hshort
      have hends : Numeral.Ends (l.moreItems depth (u :: us) ++ (w ++ ']' :: rest)) :=
        Numeral.ends_cons (by decide)
      rw [readItems, hvs v List.mem_cons_self fuel _ hends (by omega)]
      simp [Layout.moreItems, skipSpace_cons, skipSpace_chars l (l.gap_space depth), isSpace, hmore,
        ofItems]

theorem readEntries_entry {depth : Nat} (key : String) {v : Value} (hv : Reads l depth v)
    {tail : List Char} (htail : Numeral.Ends tail) {fuel : Nat}
    (hfuel : (l.chars depth v).length ≤ fuel) {es : List (String × Datum)} {rest : List Char}
    (h : (es = [] ∧ skipSpace tail = '}' :: rest) ∨
      ∃ r, skipSpace tail = ',' :: r ∧ readEntries fuel (skipSpace r) = some (some es, rest)) :
    readEntries (fuel + 1)
      (Value.quoted key.toList ++ ':' :: l.colon ++ (l.chars depth v ++ tail)) =
      some (some ((key, ofValue v) :: es), rest) := by
  obtain ⟨ps, hread, hchars⟩ :=
    readString_escaped key.toList (':' :: (l.colon ++ (l.chars depth v ++ tail)))
  have hkey : pieceText? ps = some key := by simp [pieceText?, hchars]
  have hcolon : isSpace ':' = false := by decide
  rw [List.append_assoc, Value.quoted_append, List.cons_append, readEntries, hread]
  simp only [Option.bind_eq_bind, Option.bind_some, skipSpace_cons hcolon,
    skipSpace_chars l l.colon_space, hv fuel tail htail hfuel]
  rcases h with ⟨rfl, htail⟩ | ⟨r, htail, hmore⟩
  · simp [htail, withEntry, hkey]
  · simp [htail, hmore, withEntry, hkey]

theorem readEntries_chars {depth : Nat} {w : List Char} (hw : ∀ c ∈ w, isSpace c = true)
    (rest : List Char) {key : String} {v : Value} {es : List (String × Value)}
    (hes : ∀ e ∈ (key, v) :: es, Reads l depth e.2) {fuel : Nat}
    (hfuel : (l.chars depth v ++ l.moreEntries depth es).length < fuel) :
    readEntries fuel (Value.quoted key.toList ++ ':' :: l.colon ++ (l.chars depth v ++
      (l.moreEntries depth es ++ (w ++ '}' :: rest)))) =
      some (some ((key, ofValue v) :: ofMembers es), rest) := by
  induction es generalizing key v fuel with
  | nil =>
    cases fuel with
    | zero => omega
    | succ fuel =>
      have hends : Numeral.Ends (w ++ '}' :: rest) :=
        ends_append hw (Numeral.ends_cons (by decide))
      have hlength : (l.chars depth v).length ≤ fuel := by
        rw [List.length_append] at hfuel
        omega
      have hclose : skipSpace (w ++ '}' :: rest) = '}' :: rest := by
        rw [skipSpace_append hw, skipSpace_cons (by decide)]
      exact readEntries_entry l key (hes _ List.mem_cons_self) hends hlength (.inl ⟨rfl, hclose⟩)
  | cons e es ih =>
    obtain ⟨key', u⟩ := e
    cases fuel with
    | zero => omega
    | succ fuel =>
      rw [List.length_append, Layout.moreEntries, List.length_append, List.length_cons,
        List.length_append] at hfuel
      have hshort : (l.chars depth u ++ l.moreEntries depth es).length < fuel := by
        rw [List.length_append]
        omega
      have hmore := ih (fun x hx => hes x (List.mem_cons_of_mem _ hx)) hshort
      have hends : Numeral.Ends (l.moreEntries depth ((key', u) :: es) ++ (w ++ '}' :: rest)) :=
        Numeral.ends_cons (by decide)
      have hquote (r : List Char) : skipSpace (Value.quoted key'.toList ++ r) =
          Value.quoted key'.toList ++ r := by
        rw [Value.quoted_append, skipSpace_cons (by decide)]
      have hlength : (l.chars depth v).length ≤ fuel := by omega
      refine readEntries_entry l key (hes _ List.mem_cons_self) hends hlength (.inr ?_)
      rw [Layout.moreEntries, List.cons_append, List.cons_append, skipSpace_cons (by decide)]
      refine ⟨_, rfl, ?_⟩
      simp only [List.append_assoc, List.cons_append] at hmore ⊢
      rw [skipSpace_append (l.gap_space depth), hquote, hmore]
      rfl

theorem read_list {fuel : Nat} {r : List Char} {vs : List Value} {rest : List Char}
    (hclose : (skipSpace r).head? ≠ some ']')
    (h : readItems fuel (skipSpace r) = some (ofItems vs, rest)) :
    read (fuel + 1) ('[' :: r) = some (ofValue (.list vs), rest) := by
  rw [read]
  split
  · next hr => simp [hr] at hclose
  · rw [h]
    rfl

theorem read_table {fuel : Nat} {r : List Char} {es : List (String × Value)} {rest : List Char}
    (hclose : (skipSpace r).head? ≠ some '}')
    (h : readEntries fuel (skipSpace r) = some (some (ofMembers es), rest)) :
    read (fuel + 1) ('{' :: r) = some (ofValue (.table ⟨es⟩), rest) := by
  rw [read]
  split
  · next hr => simp [hr] at hclose
  · rw [h]
    rfl

theorem reads_list {depth : Nat} {vs : List Value} (h : ∀ v ∈ vs, Reads l (depth + 1) v) :
    Reads l depth (.list vs) := by
  intro fuel rest hrest hfuel
  cases vs with
  | nil =>
    cases fuel with
    | zero => simp [Layout.chars, Value.chars] at hfuel
    | succ fuel =>
      simp [Layout.chars, Value.chars, Value.itemChars, read, skipSpace_cons, isSpace, ofValue, ofItems]
  | cons v vs =>
    cases fuel with
    | zero => simp [Layout.chars] at hfuel
    | succ fuel =>
      have hlength : (l.chars (depth + 1) v ++ l.moreItems (depth + 1) vs).length < fuel := by
        simp only [Layout.chars, List.length_append, List.length_cons, List.length_nil] at hfuel ⊢
        omega
      have hitems := readItems_chars l (l.gap_space depth) rest h hlength
      obtain ⟨c, s, hs, -, hclose, -⟩ := exists_chars_eq_cons l (depth + 1) v
      have hskip := skipSpace_chars l (l.gap_space (depth + 1)) (depth + 1) v
        (l.moreItems (depth + 1) vs ++ (l.gap depth ++ ']' :: rest))
      simp only [Layout.chars, List.cons_append, List.append_assoc, List.nil_append]
      refine read_list ?_ ?_
      · rw [hskip, hs]
        simpa using hclose
      · rw [hskip, hitems]
        rfl

theorem reads_table {depth : Nat} {es : List (String × Value)}
    (h : ∀ e ∈ es, Reads l (depth + 1) e.2) : Reads l depth (.table ⟨es⟩) := by
  intro fuel rest hrest hfuel
  cases es with
  | nil =>
    cases fuel with
    | zero => simp [Layout.chars, Value.chars] at hfuel
    | succ fuel =>
      simp [Layout.chars, Value.chars, Value.entryChars, read, skipSpace_cons, isSpace, ofValue,
        ofMembers]
  | cons e es =>
    obtain ⟨key, v⟩ := e
    cases fuel with
    | zero => simp [Layout.chars] at hfuel
    | succ fuel =>
      have hlength : (l.chars (depth + 1) v ++ l.moreEntries (depth + 1) es).length < fuel := by
        simp only [Layout.chars, List.length_append, List.length_cons, List.length_nil] at hfuel ⊢
        omega
      have hentries := readEntries_chars l (l.gap_space depth) rest h hlength
      have hskip (r : List Char) : skipSpace (l.gap (depth + 1) ++ (Value.quoted key.toList ++ r)) =
          Value.quoted key.toList ++ r := by
        rw [skipSpace_append (l.gap_space (depth + 1)), Value.quoted_append,
          skipSpace_cons (by decide)]
      simp only [List.append_assoc, List.cons_append] at hentries
      simp only [Layout.chars, List.cons_append, List.append_assoc, List.nil_append]
      refine read_table ?_ ?_
      · rw [hskip, Value.quoted_append]
        simp
      · rw [hskip, hentries]
        rfl

mutual

/-- A value whose numbers are read back is read back from its text. -/
theorem reads (depth : Nat) (v : Value) (hn : ∀ n ∈ v.numbers, n.ReadsBack) : Reads l depth v := by
  cases v with
  | number n => exact reads_number l depth (hn n (List.mem_singleton_self n))
  | string s => exact reads_string l depth s
  | list items => exact reads_list l (reads_items (depth + 1) items hn)
  | table fields =>
    obtain ⟨entries⟩ := fields
    exact reads_table l (reads_entries (depth + 1) entries hn)
  | null =>
    intro fuel rest _ hfuel
    cases fuel with
    | zero => simp [Layout.chars, Value.chars] at hfuel
    | succ fuel => simp [Layout.chars, Value.chars, read, ofValue]
  | bool b =>
    intro fuel rest _ hfuel
    cases fuel with
    | zero => cases b <;> simp [Layout.chars, Value.chars] at hfuel
    | succ fuel => cases b <;> simp [Layout.chars, Value.chars, read, ofValue]

theorem reads_items (depth : Nat) (vs : List Value) (hn : ∀ n ∈ Value.itemNumbers vs, n.ReadsBack) :
    ∀ v ∈ vs, Reads l depth v := by
  cases vs with
  | nil => simp
  | cons v vs =>
    have hv := reads depth v fun n hmem => hn n (List.mem_append_left _ hmem)
    have hvs := reads_items depth vs fun n hmem => hn n (List.mem_append_right _ hmem)
    intro u hu
    rcases List.mem_cons.mp hu with rfl | hu
    · exact hv
    · exact hvs u hu

theorem reads_entries (depth : Nat) (es : List (String × Value))
    (hn : ∀ n ∈ Value.entryNumbers es, n.ReadsBack) : ∀ e ∈ es, Reads l depth e.2 := by
  cases es with
  | nil => simp
  | cons e es =>
    have he := reads depth e.2 fun n hmem => hn n (List.mem_append_left _ hmem)
    have hes := reads_entries depth es fun n hmem => hn n (List.mem_append_right _ hmem)
    intro u hu
    rcases List.mem_cons.mp hu with rfl | hu
    · exact he
    · exact hes u hu

end

/-- The text of a value holds just that value, with blanks around it or without. -/
theorem ofChars?_chars {v : Value} (hn : ∀ n ∈ v.numbers, n.ReadsBack) {w : List Char}
    (hw : ∀ c ∈ w, isSpace c = true) : ofChars? (l.chars 0 v ++ w) = some (ofValue v) := by
  have hskip := skipSpace_chars l (w := []) (by simp) 0 v w
  have hends : Numeral.Ends w := by
    have h := ends_append hw Numeral.ends_nil
    rwa [List.append_nil] at h
  have hread := reads l 0 v hn ((l.chars 0 v ++ w).length + 1) w hends
    (by rw [List.length_append]; omega)
  have hrest : skipSpace w = [] := List.dropWhile_eq_nil_iff.mpr hw
  rw [List.nil_append] at hskip
  rw [ofChars?, hskip, hread]
  simp [hrest]

theorem ofText?_text {v : Value} (hn : ∀ n ∈ v.numbers, n.ReadsBack) :
    ofText? v.text = some (ofValue v) := by
  have h := ofChars?_chars .compact hn (w := []) (by simp)
  rw [List.append_nil, Layout.chars_compact] at h
  rw [ofText?, Value.text, String.toList_ofList, h]

theorem ofText?_prettyText {v : Value} (hn : ∀ n ∈ v.numbers, n.ReadsBack) :
    ofText? v.prettyText = some (ofValue v) := by
  have hbreak : ∀ c ∈ ['\n'], isSpace c = true := by
    intro c hc
    rw [List.mem_singleton.mp hc]
    rfl
  have h := ofChars?_chars .pretty hn hbreak
  rw [Layout.chars_pretty] at h
  rw [ofText?, Value.prettyText, String.toList_ofList, h]

end Datum

end ClassSchema
