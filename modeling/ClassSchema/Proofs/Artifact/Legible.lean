import ClassSchema.Proofs.Artifact.Quiet
import ClassSchema.Proofs.Resolver.PlanReadBack

/-!
# Directives of object types

A field whose name is a word, whose arguments hold no closing parenthesis and whose type stays on its
line is found with its plan. In an object type of such fields, each under a quiet description, nothing
else is found.
-/

namespace ClassSchema

/-- The numbers of the blanks beyond ASCII. -/
private def farBlanks : List Nat :=
  [0x85, 0xA0, 0x1680, 0x2000, 0x2001, 0x2002, 0x2003, 0x2004, 0x2005, 0x2006, 0x2007, 0x2008,
    0x2009, 0x200A, 0x2028, 0x2029, 0x202F, 0x205F, 0x3000]

private theorem mem_farBlanks {c : Char} (hfar : ¬ c.toNat < 0x80) (h : isBlank c = true) :
    c.toNat ∈ farBlanks := by
  have htab : '\t'.toNat = 9 := rfl
  have hreturn : '\r'.toNat = 13 := rfl
  have hspace : ' '.toNat = 32 := rfl
  simp only [isBlank, Bool.or_eq_true, Bool.and_eq_true, decide_eq_true_eq, Char.le_def,
    UInt32.le_iff_toNat_le, Char.toNat_val, htab, hreturn, ← Char.toNat_inj, hspace] at h
  simp only [farBlanks, List.mem_cons, List.not_mem_nil, or_false]
  omega

private theorem wordRanges_farBlanks :
    (wordRanges.toList.all fun r => farBlanks.all fun n => n < r.1 || r.2 < n) = true := by
  decide +kernel

theorem isBlank_of_isWordChar {c : Char} (h : isWordChar c = true) : isBlank c = false := by
  by_cases hnear : c.toNat < 0x80
  · have hall : ∀ n < 0x80, isWordChar (Char.ofNat n) = true → isBlank (Char.ofNat n) = false := by
      decide +kernel
    have hc := hall c.toNat hnear
    rw [Char.ofNat_toNat] at hc
    exact hc h
  -- Beyond ASCII the words are given by ranges, and none of the few blanks there lies in one.
  · rw [isWordChar, if_neg hnear, inRanges, ← Array.any_toList, List.any_eq_true] at h
    obtain ⟨r, hr, hin⟩ := h
    rw [Bool.and_eq_true, decide_eq_true_eq, decide_eq_true_eq] at hin
    by_contra hblank
    have hout := List.all_eq_true.mp (List.all_eq_true.mp wordRanges_farBlanks r hr) _
      (mem_farBlanks hnear (by simpa using hblank))
    simp only [Bool.or_eq_true, decide_eq_true_eq] at hout
    omega

open Value (quoted escaped escapedChar)

namespace Artifact

/-! ### Quoted texts -/

theorem restOfQuoted_plain {c : Char} (hquote : c ≠ '"') (hslash : c ≠ '\\') (r : List Char) :
    restOfQuoted (c :: r) = (restOfQuoted r).map fun p => (c :: p.1, p.2) := by
  rw [restOfQuoted, if_neg hslash]
  · exact hquote
  · intro _ _ h
    exact absurd h hslash

theorem hexDigit_plain : ∀ n < 16, Value.hexDigit n ≠ '"' ∧ Value.hexDigit n ≠ '\\' := by decide

theorem restOfQuoted_escapedChar (c : Char) (r : List Char) :
    restOfQuoted (escapedChar c ++ r) =
      (restOfQuoted r).map fun p => (escapedChar c ++ p.1, p.2) := by
  rcases Value.escapedChar_cases c with
    ⟨e, he, hwritten⟩ | ⟨hcontrol, hwritten⟩ | ⟨hquote, hslash, -, hwritten⟩
  · have hline : e ≠ '\n' := by
      rintro rfl
      simp [Datum.unescape?] at he
    rw [hwritten, List.cons_append, List.cons_append, List.nil_append, restOfQuoted, if_neg hline]
    rfl
  · obtain ⟨hhigh, hhigh'⟩ := hexDigit_plain (c.toNat / 16) (by omega)
    obtain ⟨hlow, hlow'⟩ := hexDigit_plain (c.toNat % 16) (by omega)
    have hunicode (s : List Char) : restOfQuoted ('\\' :: 'u' :: s) =
        (restOfQuoted s).map fun p => ('\\' :: 'u' :: p.1, p.2) := rfl
    simp only [hwritten, List.cons_append, List.nil_append]
    rw [hunicode, restOfQuoted_plain (by decide) (by decide),
      restOfQuoted_plain (by decide) (by decide), restOfQuoted_plain hhigh hhigh',
      restOfQuoted_plain hlow hlow']
    cases restOfQuoted r <;> rfl
  · rw [hwritten]
    exact restOfQuoted_plain hquote hslash r

theorem restOfQuoted_escaped (s r : List Char) :
    restOfQuoted (escaped s ++ '"' :: r) = some (escaped s ++ ['"'], r) := by
  induction s with
  | nil => rfl
  | cons c s ih =>
    have hcons : escaped (c :: s) = escapedChar c ++ escaped s := rfl
    rw [hcons, List.append_assoc, restOfQuoted_escapedChar, ih]
    simp

/-! ### The line of a field -/

/-- The arguments of a field in their parentheses. -/
def listed : List Argument → List Char
  | [] => []
  | a :: args => '(' :: separated [',', ' '] ((a :: args).map argumentChars) ++ [')']

theorem signatureChars_eq (name : String) (args : List Argument) (type : String) :
    signatureChars name args type = name.toList ++ (listed args ++ ':' :: ' ' :: type.toList) := by
  cases args <;> simp [signatureChars, listed]

theorem mem_separated {c : Char} {sep : List Char} {xs : List (List Char)}
    (h : c ∈ separated sep xs) : c ∈ sep ∨ ∃ x ∈ xs, c ∈ x := by
  fun_induction separated sep xs with
  | case1 => cases h
  | case2 s => exact .inr ⟨s, List.mem_cons_self, h⟩
  | case3 s rest _ ih =>
    rw [List.mem_append, List.mem_append] at h
    rcases h with (h | h) | h
    · exact .inr ⟨s, List.mem_cons_self, h⟩
    · exact .inl h
    · rcases ih h with h | ⟨x, hx, h⟩
      · exact .inl h
      · exact .inr ⟨x, List.mem_cons_of_mem _ hx, h⟩

theorem skipArguments_listed {args : List Argument} (h : ∀ a ∈ args, ')' ∉ argumentChars a)
    (r : List Char) : skipArguments (listed args ++ ':' :: r) = some (':' :: r) := by
  cases args with
  | nil => rfl
  | cons a args =>
    have hall : ∀ c ∈ separated [',', ' '] ((a :: args).map argumentChars), c ≠ ')' := by
      rintro c hc rfl
      rcases mem_separated hc with hsep | ⟨x, hx, hc⟩
      · exact absurd hsep (by simp)
      · obtain ⟨b, hb, rfl⟩ := List.mem_map.mp hx
        exact h b hb hc
    rw [listed, List.cons_append, List.cons_append, List.append_assoc, skipArguments,
      List.dropWhile_append_of_pos fun c hc => decide_eq_true (hall c hc)]
    rfl

theorem dropWhile_type {w : List Char} (h : ∀ c ∈ skipBlanks w, c ≠ '@' ∧ c ≠ '\n') (r : List Char) :
    (skipBlanks (w ++ ' ' :: '@' :: r)).dropWhile (fun c => c ≠ '@' && c ≠ '\n') = '@' :: r := by
  rw [skipBlanks, List.dropWhile_append]
  split
  · rfl
  · rw [List.dropWhile_append_of_pos]
    · rfl
    · intro c hc
      simpa using h c hc

/-- What a field with a plan is found as. -/
def directiveOf (f : Field) (p : Plan) : Directive := ⟨f.name.toList, quoted p.text.toList⟩

end Artifact

open Artifact

/-- A field that is found by its line. -/
structure Field.Legible (f : Field) : Prop where
  named : f.name ≠ ""
  word : ∀ c ∈ f.name.toList, isWordChar c = true
  closed : ∀ a ∈ f.args, ')' ∉ argumentChars a
  inline : ∀ c ∈ skipBlanks f.type.toList, c ≠ '@' ∧ c ≠ '\n'
  quiet : ∀ t, f.description = some t → Quiet (escapeBlock t.toList)

/-- A field without a plan, whose line does not run on into the next. -/
structure Field.Unbound (f : Field) : Prop where
  unbound : f.resolver = none
  line : '\n' ∉ fieldLine f
  typed : skipBlanks f.type.toList ≠ []

namespace Artifact

theorem readRest_typed {f : Field} (h : f.Legible) (s : List Char) :
    readRest (listed f.args ++ ':' :: ' ' :: s) =
      (after? directiveMark ((skipBlanks s).dropWhile fun c => c ≠ '@' && c ≠ '\n')).bind fun s =>
        (after? ['"'] (skipBlanks s)).bind fun s =>
          (restOfQuoted s).bind fun q => (after? [')'] q.2).map fun s => ('"' :: q.1, s) := by
  have hcolon (s : List Char) : after? [':'] (skipBlanks (':' :: s)) = some s := rfl
  have hblank (s : List Char) : skipBlanks (' ' :: s) = skipBlanks s := rfl
  rw [readRest, skipArguments_listed h.closed, Option.bind_some, hcolon, Option.bind_some, hblank]

theorem readRest_listed {f : Field} (h : f.Legible) (p : Plan) (r : List Char) :
    readRest (listed f.args ++ ':' :: ' ' :: (f.type.toList ++ (directiveChars p ++ r))) =
      some (quoted p.text.toList, r) := by
  have htext : directiveChars p ++ r =
      ' ' :: (directiveMark ++ ' ' :: '"' :: (escaped p.text.toList ++ '"' :: ')' :: r)) := by
    have hbegin : ' ' :: '@' :: resolverDirective ++ "(encoded: ".toList =
        ' ' :: (directiveMark ++ [' ']) := by decide
    rw [directiveChars, hbegin, quoted]
    simp only [List.cons_append, List.append_assoc, List.nil_append]
  have hmark : directiveMark = '@' :: "resolver(encoded:".toList := by decide
  have htype := dropWhile_type h.inline
    ("resolver(encoded:".toList ++ ' ' :: '"' :: (escaped p.text.toList ++ '"' :: ')' :: r))
  have hquote (s : List Char) : after? ['"'] (skipBlanks (' ' :: '"' :: s)) = some s := rfl
  rw [readRest_typed h, htext, hmark, List.cons_append, htype, ← List.cons_append, ← hmark,
    after?_append, Option.bind_some, hquote, Option.bind_some, restOfQuoted_escaped]
  rfl

theorem skipBlanks_indented {f : Field} (h : f.Legible) (r : List Char) :
    skipBlanks (' ' :: ' ' :: (f.name.toList ++ r)) = f.name.toList ++ r := by
  have hblank (s : List Char) : skipBlanks (' ' :: ' ' :: s) = skipBlanks s := rfl
  have hname := mt String.toList_eq_nil_iff.mp h.named
  have hword := h.word
  rw [hblank]
  cases hchars : f.name.toList with
  | nil => exact absurd hchars hname
  | cons c cs =>
    have hc := isBlank_of_isWordChar (hword c (hchars ▸ List.mem_cons_self))
    rw [skipBlanks, List.cons_append, List.dropWhile_cons_of_neg (by simp [hc])]

theorem listed_append_not_word (args : List Argument) (r : List Char) :
    ∃ c s, isWordChar c = false ∧ listed args ++ ':' :: r = c :: s := by
  cases args with
  | nil => exact ⟨':', r, rfl, rfl⟩
  | cons a args => exact ⟨'(', _, rfl, rfl⟩

theorem readDirective_named {f : Field} (h : f.Legible) (r : List Char) :
    readDirective (' ' :: ' ' :: (f.name.toList ++ (listed f.args ++ ':' :: r))) =
      (readRest (listed f.args ++ ':' :: r)).map fun p => (⟨f.name.toList, p.1⟩, p.2) := by
  obtain ⟨c, s, hc, hrest⟩ := listed_append_not_word f.args r
  have htake : (f.name.toList ++ c :: s).takeWhile isWordChar = f.name.toList := by
    rw [List.takeWhile_append_of_pos h.word, List.takeWhile_cons_of_neg (by simp [hc]),
      List.append_nil]
  have hdrop : (f.name.toList ++ c :: s).dropWhile isWordChar = c :: s := by
    rw [List.dropWhile_append_of_pos h.word, List.dropWhile_cons_of_neg (by simp [hc])]
  rw [readDirective_eq, skipBlanks_indented h, hrest, htake, hdrop,
    if_neg (mt String.toList_eq_nil_iff.mp h.named)]

/-- A legible field is found with its plan. -/
theorem readDirective_fieldLine {f : Field} (h : f.Legible) {p : Plan} (hp : f.resolver = some p)
    (r : List Char) :
    readDirective (' ' :: ' ' :: (fieldLine f ++ r)) = some (directiveOf f p, r) := by
  have hline : fieldLine f ++ r = f.name.toList ++ (listed f.args ++
      ':' :: ' ' :: (f.type.toList ++ (directiveChars p ++ r))) := by
    simp [fieldLine, hp, signatureChars_eq]
  rw [hline, readDirective_named h, readRest_listed h p r]
  rfl

theorem readDirective_unbound {f : Field} (h : f.Legible) (hf : f.Unbound) (r : List Char) :
    readDirective (' ' :: ' ' :: (fieldLine f ++ '\n' :: r)) = none := by
  have hline : fieldLine f ++ '\n' :: r = f.name.toList ++ (listed f.args ++
      ':' :: ' ' :: (f.type.toList ++ '\n' :: r)) := by
    simp [fieldLine, hf.unbound, signatureChars_eq]
  -- The type is not blank, so the blanks before it end on this line, and so does what is read as the type.
  have htype : (skipBlanks (f.type.toList ++ '\n' :: r)).dropWhile (fun c => c ≠ '@' && c ≠ '\n') =
      '\n' :: r := by
    have hkept : (f.type.toList.dropWhile isBlank).isEmpty = false := by
      rw [List.isEmpty_eq_false_iff]
      exact hf.typed
    rw [skipBlanks, List.dropWhile_append, hkept, if_neg (by simp)]
    rw [List.dropWhile_append_of_pos]
    · rfl
    · intro c hc
      simpa using h.inline c hc
  have hmark : after? directiveMark ('\n' :: r) = none := rfl
  rw [hline, readDirective_named h, readRest_typed h, htype, hmark]
  rfl

/-! ### The text of an object type -/

theorem scanDirectives_found {u r : List Char} {c : Char} {d : Directive} (hc : c ≠ '\n')
    (h : readDirective (u ++ c :: r) = some (d, r)) :
    scanDirectives 0 true (u ++ c :: r) = d :: scanDirectives 0 false r := by
  have hfalse : decide (c = '\n') = false := decide_eq_false hc
  cases u with
  | nil =>
    rw [List.nil_append] at h ⊢
    rw [scanDirectives, if_pos rfl, h, hfalse]
    simp
  | cons a u =>
    rw [List.cons_append] at h ⊢
    -- What the directive takes is skipped up to its last character, with which no line ends.
    have hlength : (u ++ c :: r).length - r.length = (u ++ [c]).length := by
      simp
      omega
    rw [scanDirectives, if_pos rfl, h]
    dsimp only
    rw [hlength, List.append_cons u c r, scanDirectives_skip, List.getLast?_concat]
    simp [hfalse]

theorem scanDirectives_row {f : Field} (h : f.Legible) {p : Plan} (hp : f.resolver = some p)
    (r : List Char) : scanDirectives 0 true (row f.description (fieldLine f) ++ r) =
      directiveOf f p :: scanDirectives 0 true r := by
  have hread := readDirective_fieldLine h hp ('\n' :: r)
  have hend : ∃ u, ' ' :: ' ' :: fieldLine f = u ++ [')'] :=
    ⟨_, by rw [fieldLine, hp]; dsimp only; rw [directiveChars, ← List.append_assoc,
      ← List.cons_append, ← List.cons_append]⟩
  obtain ⟨u, hu⟩ := hend
  have hline : ' ' :: ' ' :: (fieldLine f ++ '\n' :: r) = u ++ ')' :: '\n' :: r := by
    rw [← List.cons_append, ← List.cons_append, hu, List.append_assoc]
    rfl
  have hrow : row f.description (fieldLine f) ++ r =
      framed "  \"\"\"" "\"\"\"\n" f.description ++ (u ++ ')' :: '\n' :: r) := by
    rw [← hline]
    simp [row]
  rw [hline] at hread
  rw [hrow, scanDirectives_framed_line h.quiet, scanDirectives_found (by decide) hread]
  rfl

theorem scanDirectives_row_unbound {f : Field} (h : f.Legible) (hf : f.Unbound) (r : List Char) :
    scanDirectives 0 true (row f.description (fieldLine f) ++ r) = scanDirectives 0 true r := by
  have hrow : row f.description (fieldLine f) ++ r = framed "  \"\"\"" "\"\"\"\n" f.description ++
      (' ' :: ' ' :: fieldLine f ++ '\n' :: r) := by
    simp [row]
  rw [hrow, scanDirectives_framed_line h.quiet]
  exact scanDirectives_fresh_line (by simpa using hf.line) (by simp) (readDirective_unbound h hf r)

/-- The plans of fields by name. -/
def bound (fs : List Field) : List (Field × Plan) :=
  fs.filterMap fun f => f.resolver.map fun p => (f, p)

theorem scanDirectives_rows {fs : List Field} (h : ∀ f ∈ fs, f.Legible)
    (hunbound : ∀ f ∈ fs, f.resolver = none → f.Unbound) (r : List Char) :
    scanDirectives 0 true ((fs.flatMap fun f => row f.description (fieldLine f)) ++ r) =
      (bound fs).map (fun e => directiveOf e.1 e.2) ++ scanDirectives 0 true r := by
  induction fs with
  | nil => rfl
  | cons f fs ih =>
    have hf := h f List.mem_cons_self
    have hrest := ih (fun g hg => h g (List.mem_cons_of_mem _ hg))
      fun g hg => hunbound g (List.mem_cons_of_mem _ hg)
    rw [List.flatMap_cons, List.append_assoc]
    cases hp : f.resolver with
    | none =>
      have hbound : bound (f :: fs) = bound fs := by simp [bound, hp]
      rw [scanDirectives_row_unbound hf (hunbound f List.mem_cons_self hp), hrest, hbound]
    | some p =>
      have hbound : bound (f :: fs) = (f, p) :: bound fs := by simp [bound, hp]
      rw [scanDirectives_row hf hp, hrest, hbound]
      rfl

end Artifact

end ClassSchema
