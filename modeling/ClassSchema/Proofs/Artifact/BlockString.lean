import ClassSchema.Proofs.Template.Builtin
import Mathlib.Data.List.DropRight

/-!
# Block strings

Where a reader of the printed text finds the end of a description. A description between lines of
quotes ends where it was written to end, whatever it holds. One that stands on a line with its quotes
touches them: a backslash at its end hides them, and quotes at its end are taken for them.
-/

namespace ClassSchema.Artifact

def tripled : List Char := ['"', '"', '"']

/-- The content of a block string and what follows it, read from behind the opening quotes. Three
quotes end the string unless a backslash stands right before them, which is dropped. -/
def readBlock : List Char → Option (List Char × List Char)
  | '\\' :: '"' :: '"' :: '"' :: rest => (readBlock rest).map (Prod.map (tripled ++ ·) id)
  | '"' :: '"' :: '"' :: rest => some ([], rest)
  | c :: rest => (readBlock rest).map (Prod.map (c :: ·) id)
  | [] => none

/-- A text that nothing is read into behind it: no backslash ends it, and the quotes that end it can
be taken three by three. -/
def Sealed (t : List Char) : Prop :=
  t.getLast? ≠ some '\\' ∧ 3 ∣ (t.rtakeWhile (· = '"')).length

instance (t : List Char) : Decidable (Sealed t) := inferInstanceAs (Decidable (_ ∧ _))

variable {c : Char} {u v r : List Char}

/-! ### A character at a time -/

theorem tripled_prefix_iff :
    tripled <+: c :: r ↔ ∃ s, c = '"' ∧ r = '"' :: '"' :: s := by
  constructor
  · rintro ⟨s, h⟩
    obtain ⟨rfl, rfl⟩ := List.cons.inj h
    exact ⟨s, rfl, rfl⟩
  · rintro ⟨s, rfl, rfl⟩
    exact ⟨s, rfl⟩

theorem readBlock_escaped (r : List Char) :
    readBlock ('\\' :: tripled ++ r) = (readBlock r).map (Prod.map (tripled ++ ·) id) := by
  change readBlock ('\\' :: '"' :: '"' :: '"' :: r) = _
  rw [readBlock]

theorem readBlock_cons (hquotes : ¬ tripled <+: c :: r) (hescaped : c = '\\' → ¬ tripled <+: r) :
    readBlock (c :: r) = (readBlock r).map (Prod.map (c :: ·) id) := by
  rw [readBlock]
  · rintro s rfl rfl
    exact hescaped rfl ⟨s, rfl⟩
  · rintro s rfl rfl
    exact hquotes ⟨s, rfl⟩

theorem escapeBlock_cons (h : ¬ tripled <+: c :: r) : escapeBlock (c :: r) = c :: escapeBlock r := by
  rw [escapeBlock]
  rintro s rfl rfl
  exact h ⟨s, rfl⟩

theorem escapeBlock_tripled (r : List Char) :
    escapeBlock (tripled ++ r) = '\\' :: tripled ++ escapeBlock r := by
  change escapeBlock ('"' :: '"' :: '"' :: r) = _
  rw [escapeBlock]
  rfl

/-- A text is built up by putting three quotes or, where these do not arise, one character before. -/
theorem tripled_induction {motive : List Char → Prop} (nil : motive [])
    (tripled_append : ∀ r, motive r → motive (tripled ++ r))
    (cons : ∀ c r, ¬ tripled <+: c :: r → motive r → motive (c :: r)) (u : List Char) : motive u := by
  fun_induction escapeBlock u with
  | case1 r ih => exact tripled_append r ih
  | case2 c r h ih =>
    refine cons c r ?_ ih
    rw [tripled_prefix_iff]
    rintro ⟨s, hc, hr⟩
    exact h s hc hr
  | case3 => exact nil

/-! ### Three quotes in an escaped text -/

theorem head_escapeBlock_append (hv : v.head? ≠ some '"')
    (h : (escapeBlock u ++ v).head? = some '"') :
    ∃ r, u = '"' :: r ∧ escapeBlock u = '"' :: escapeBlock r := by
  rcases u with - | ⟨c, r⟩
  · exact absurd h hv
  · by_cases hq : tripled <+: c :: r
    · obtain ⟨s, hs⟩ := hq
      rw [← hs, escapeBlock_tripled] at h
      cases h
    · have heq := escapeBlock_cons hq
      rw [heq] at h
      obtain rfl : c = '"' := by simpa using h
      exact ⟨r, rfl, heq⟩

theorem not_tripled_prefix_escapeBlock (hv : v.head? ≠ some '"') :
    ¬ tripled <+: escapeBlock u ++ v := by
  rintro ⟨s, hs⟩
  obtain ⟨r₁, rfl, h₁⟩ := head_escapeBlock_append hv (congrArg List.head? hs).symm
  rw [h₁] at hs
  have hs₁ := (List.cons.inj hs).2
  obtain ⟨r₂, rfl, h₂⟩ := head_escapeBlock_append hv (congrArg List.head? hs₁).symm
  rw [h₂] at hs₁
  have hs₂ := (List.cons.inj hs₁).2
  obtain ⟨r₃, rfl, -⟩ := head_escapeBlock_append hv (congrArg List.head? hs₂).symm
  cases h₁

theorem readBlock_escapeBlock_append (hv : v.head? ≠ some '"') (u : List Char) :
    readBlock (escapeBlock u ++ v) = (readBlock v).map (Prod.map (u ++ ·) id) := by
  induction u using tripled_induction with
  | nil =>
    have hid : Prod.map (fun t : List Char => [] ++ t) (id : List Char → List Char) = id := rfl
    rw [hid, Option.map_id]
    rfl
  | tripled_append r ih =>
    rw [escapeBlock_tripled, List.append_assoc, readBlock_escaped, ih, Option.map_map]
    simp only [Function.comp_def, Prod.map_map, List.append_assoc]
    rfl
  | cons c r h ih =>
    have hquotes : ¬ tripled <+: c :: (escapeBlock r ++ v) := by
      rw [← List.cons_append, ← escapeBlock_cons h]
      exact not_tripled_prefix_escapeBlock hv
    rw [escapeBlock_cons h, List.cons_append,
      readBlock_cons hquotes fun _ => not_tripled_prefix_escapeBlock hv, ih, Option.map_map]
    rfl

theorem escapeBlock_append_cons (hc : c ≠ '"') (u v : List Char) :
    escapeBlock (u ++ c :: v) = escapeBlock u ++ c :: escapeBlock v := by
  have hstart (w : List Char) (d : Char) (r : List Char) (h : ¬ tripled <+: d :: r) :
      ¬ tripled <+: d :: (r ++ c :: w) := by
    rw [tripled_prefix_iff]
    rintro ⟨s, rfl, hs⟩
    rcases r with - | ⟨e, - | ⟨f, r⟩⟩
    · exact hc (List.cons.inj hs).1
    · exact hc (List.cons.inj (List.cons.inj hs).2).1
    · obtain ⟨rfl, htail⟩ := List.cons.inj hs
      obtain ⟨rfl, -⟩ := List.cons.inj htail
      exact h ⟨r, rfl⟩
  induction u using tripled_induction with
  | nil =>
    refine escapeBlock_cons ?_
    rw [tripled_prefix_iff]
    rintro ⟨s, rfl, -⟩
    exact hc rfl
  | tripled_append r ih =>
    rw [List.append_assoc, escapeBlock_tripled, escapeBlock_tripled, ih, List.append_assoc]
  | cons d r h ih =>
    rw [List.cons_append, escapeBlock_cons (hstart v d r h), escapeBlock_cons h, ih]
    rfl

/-! ### The end of a text -/

theorem eq_replicate_or_append (t : List Char) :
    t = List.replicate (t.rtakeWhile (· = '"')).length '"' ∨
      ∃ u c, c ≠ '"' ∧ t = u ++ c :: List.replicate (t.rtakeWhile (· = '"')).length '"' := by
  have hquotes : t.rtakeWhile (· = '"') = List.replicate (t.rtakeWhile (· = '"')).length '"' :=
    List.eq_replicate_of_mem fun c hc => by simpa using List.mem_rtakeWhile_imp hc
  have hsplit : t.rdropWhile (· = '"') ++ t.rtakeWhile (· = '"') = t :=
    List.rdropWhile_append_rtakeWhile
  rw [← hquotes]
  rcases List.eq_nil_or_concat (t.rdropWhile (· = '"')) with hnil | ⟨u, c, hu⟩
  · left
    rw [hnil, List.nil_append] at hsplit
    exact hsplit.symm
  · right
    refine ⟨u, c, ?_, ?_⟩
    · have hne : t.rdropWhile (· = '"') ≠ [] := by simp [hu]
      have hlast := List.rdropWhile_last_not (· = '"') t hne
      simpa [hu] using hlast
    · rw [hu] at hsplit
      simpa using hsplit.symm

theorem readBlock_replicate (m k : ℕ) (hk : k < 3) (r : List Char) :
    readBlock (escapeBlock (List.replicate (3 * m + k) '"') ++ (tripled ++ r)) =
      some (List.replicate (3 * m) '"', List.replicate k '"' ++ r) := by
  induction m with
  | zero =>
    match k, hk with
    | 0, _ => rfl
    | 1, _ => rfl
    | 2, _ => rfl
  | succ m ih =>
    have hsplit (j : ℕ) : List.replicate (3 * (m + 1) + j) '"' =
        tripled ++ List.replicate (3 * m + j) '"' := by
      rw [show 3 * (m + 1) + j = 3 + (3 * m + j) by omega, List.replicate_add]
      rfl
    rw [hsplit, escapeBlock_tripled, List.append_assoc, readBlock_escaped, ih,
      ← Nat.add_zero (3 * (m + 1)), hsplit]
    rfl

theorem getLast?_append_replicate (u : List Char) (c : Char) (n : ℕ) :
    (u ++ c :: List.replicate n '"').getLast? = some '\\' ↔ n = 0 ∧ c = '\\' := by
  cases n with
  | zero => simp
  | succ n =>
    rw [List.replicate_succ', ← List.cons_append, ← List.append_assoc, List.getLast?_concat]
    simp

theorem readBlock_hidden (u : List Char) {n : ℕ} (hn : n < 3) (r : List Char) :
    readBlock (escapeBlock (u ++ '\\' :: List.replicate n '"') ++ (tripled ++ r)) =
      (readBlock (List.replicate n '"' ++ r)).map (Prod.map (u ++ tripled ++ ·) id) := by
  have hdelimiter : escapeBlock (List.replicate n '"') ++ (tripled ++ r) =
      tripled ++ (List.replicate n '"' ++ r) := by
    match n, hn with
    | 0, _ => rfl
    | 1, _ => rfl
    | 2, _ => rfl
  rw [escapeBlock_append_cons (by decide), List.append_assoc,
    readBlock_escapeBlock_append (by simp), List.cons_append, hdelimiter, ← List.cons_append,
    readBlock_escaped, Option.map_map]
  simp only [Function.comp_def, Prod.map_map, List.append_assoc]
  rfl

theorem readBlock_shown (u : List Char) {c : Char} {m k : ℕ} (hc : c ≠ '"') (hk : k < 3)
    (hm : c = '\\' → 0 < m) (r : List Char) :
    readBlock (escapeBlock (u ++ c :: List.replicate (3 * m + k) '"') ++ (tripled ++ r)) =
      some (u ++ c :: List.replicate (3 * m) '"', List.replicate k '"' ++ r) := by
  have hquotes : ¬ tripled <+: c :: (escapeBlock (List.replicate (3 * m + k) '"') ++ (tripled ++ r)) :=
    fun h => hc (tripled_prefix_iff.mp h).choose_spec.1
  have hescaped : c = '\\' →
      ¬ tripled <+: escapeBlock (List.replicate (3 * m + k) '"') ++ (tripled ++ r) := by
    intro h
    obtain ⟨m, rfl⟩ := Nat.exists_eq_succ_of_ne_zero (hm h).ne'
    rw [show 3 * (m + 1) + k = 3 + (3 * m + k) by omega, List.replicate_add]
    change ¬ tripled <+: escapeBlock (tripled ++ _) ++ _
    rw [escapeBlock_tripled, List.cons_append, List.cons_append, tripled_prefix_iff]
    rintro ⟨s, hs, -⟩
    cases hs
  rw [escapeBlock_append_cons hc, List.append_assoc, readBlock_escapeBlock_append (by simpa using hc),
    List.cons_append, readBlock_cons hquotes hescaped, readBlock_replicate m k hk]
  rfl

theorem left_over_iff (w : ℕ → List Char) (m k : ℕ) (r : List Char) :
    some (w m, List.replicate k '"' ++ r) = some (w (m + k), r) ↔ k = 0 := by
  constructor
  · intro h
    have hrest : List.replicate k '"' ++ r = r := (Prod.mk.inj (Option.some.inj h)).2
    have hnone := List.append_left_eq_self.mp hrest
    rwa [List.replicate_eq_nil_iff] at hnone
  · rintro rfl
    rfl

/-- A description that touches its quotes is read back exactly when it is sealed. -/
theorem readBlock_escapeBlock_iff (t r : List Char) :
    readBlock (escapeBlock t ++ (tripled ++ r)) = some (t, r) ↔ Sealed t := by
  obtain ⟨m, k, hk, hn⟩ : ∃ m k, k < 3 ∧ (t.rtakeWhile (· = '"')).length = 3 * m + k :=
    ⟨_ / 3, _ % 3, Nat.mod_lt _ (by decide), (Nat.div_add_mod _ 3).symm⟩
  have hdvd : 3 ∣ (t.rtakeWhile (· = '"')).length ↔ k = 0 := by omega
  rw [Sealed, hdvd]
  rcases eq_replicate_or_append t with ht | ⟨u, c, hc, ht⟩ <;> rw [hn] at ht <;> rw [ht]
  · have hlast : (List.replicate (3 * m + k) '"').getLast? ≠ some '\\' := by
      rw [List.getLast?_replicate]
      split <;> simp
    rw [readBlock_replicate m k hk, left_over_iff (List.replicate · '"')]
    exact (and_iff_right hlast).symm
  · have hlast := getLast?_append_replicate u c (3 * m + k)
    by_cases hhidden : c = '\\' ∧ m = 0
    · obtain ⟨rfl, rfl⟩ := hhidden
      rw [readBlock_hidden u (by omega)]
      constructor
      · intro h
        obtain ⟨⟨v, w⟩, -, hv⟩ := Option.map_eq_some_iff.mp h
        have hcontent := (Prod.mk.inj hv).1
        simp [tripled] at hcontent
      · rintro ⟨h, rfl⟩
        exact absurd (hlast.mpr ⟨rfl, rfl⟩) h
    · have hm : c = '\\' → 0 < m := fun h => Nat.pos_of_ne_zero fun hm => hhidden ⟨h, hm⟩
      have hshown : ¬ (3 * m + k = 0 ∧ c = '\\') := by
        rintro ⟨h, hback⟩
        have := hm hback
        omega
      rw [readBlock_shown u hc hk hm, left_over_iff (fun n => u ++ c :: List.replicate n '"')]
      exact (and_iff_right (mt hlast.mp hshown)).symm

/-- A description between lines of quotes is always read back, with its line breaks. -/
theorem readBlock_framed (t r : List Char) :
    readBlock ('\n' :: escapeBlock t ++ '\n' :: (tripled ++ r)) = some ('\n' :: t ++ ['\n'], r) := by
  have hescape : escapeBlock ('\n' :: t ++ ['\n']) = '\n' :: escapeBlock t ++ ['\n'] := by
    rw [escapeBlock_append_cons (by decide), ← List.nil_append ('\n' :: t),
      escapeBlock_append_cons (by decide)]
    rfl
  have hsealed : Sealed ('\n' :: t ++ ['\n']) := by
    refine ⟨by rw [List.getLast?_concat]; decide, ?_⟩
    rw [List.rtakeWhile_concat_neg _ _ _ (by decide)]
    exact dvd_zero 3
  have hread := (readBlock_escapeBlock_iff _ r).mpr hsealed
  rwa [hescape, List.append_assoc, List.singleton_append] at hread

/-! ### Descriptions in the text of a definition -/

def definitionDescription : Definition → Option String
  | .object o => o.description
  | .input i => i.description
  | .interface i => i.description
  | .union u => u.description
  | .enum e => e.description
  | .scalar t => t.description

/-- The fields or values of a definition: each with its description and the line it is printed as. -/
def rows (s : Schema) : Definition → List (Option String × List Char)
  | .object o => o.fields.values.map fun f => (f.description, fieldLine f)
  | .interface i =>
    i.fields.values.map fun f => (f.description, signatureChars f.name f.args f.type)
  | .input i => i.fields.values.map fun f => (f.description, inputLine s f)
  | .enum e => e.values.map fun v => (v.description, v.name.toList)
  | .union _ | .scalar _ => []

/-- The text `content` stands between three quotes and three quotes, with `front` before them and `rest`
behind them. -/
def Delimits (text front content rest : List Char) : Prop :=
  text = front ++ (tripled ++ (content ++ (tripled ++ rest)))

theorem builtinText_eq (s : Schema) (d : Definition) :
    ∃ title foot, builtinText s d = framed "\"\"\"\n" "\n\"\"\"\n" (definitionDescription d) ++
      (title ++ (rows s d).flatMap (fun r => row r.1 r.2) ++ foot) := by
  cases d with
  | object o =>
    refine ⟨"type".toList ++ ' ' :: o.name.toList ++ implementsClause o.interfaces ++ [' ', '{', '\n'],
      ['}', '\n'], ?_⟩
    simp [builtinText, opening, body, rows, definitionDescription, List.flatMap_map]
  | interface i =>
    refine ⟨"interface".toList ++ ' ' :: i.name.toList ++ [' ', '{', '\n'], ['}', '\n'], ?_⟩
    simp [builtinText, opening, body, rows, definitionDescription, List.flatMap_map]
  | input i =>
    refine ⟨"input".toList ++ ' ' :: i.name.toList ++ [' ', '{', '\n'], ['}', '\n'], ?_⟩
    simp [builtinText, opening, body, rows, definitionDescription, List.flatMap_map]
  | union u =>
    refine ⟨"union".toList ++ ' ' :: u.name.toList ++ " = ".toList ++
      (joinedNames " | " u.members).toList, ['\n'], ?_⟩
    simp [builtinText, opening, rows, definitionDescription]
  | enum e =>
    refine ⟨"enum".toList ++ ' ' :: e.name.toList ++ [' ', '{', '\n'], ['}', '\n'], ?_⟩
    simp [builtinText, opening, body, rows, definitionDescription, List.flatMap_map]
  | scalar t =>
    refine ⟨"scalar".toList ++ ' ' :: t.name.toList, ['\n'], ?_⟩
    simp [builtinText, opening, rows, definitionDescription]

theorem framed_some (before after : String) {t : String} (ht : t ≠ "") :
    framed before after (some t) = before.toList ++ escapeBlock t.toList ++ after.toList :=
  if_neg ht

/-- The built-in template of its kind renders every definition, and its descriptions that are not blank
stand in the text between quotes. The definition's own is always read back as it was given, between
line breaks; that of a field or value is read back exactly when it does not end in a backslash and the
quotes it ends in are a multiple of three. -/
theorem encoder_builtin_delimits (s : Schema) (d : Definition) :
    ∃ text, TemplateLibrary.builtin.encoder d.kind.word (scope s d) = .ok (String.ofList text) ∧
      (∀ t, definitionDescription d = some t → t ≠ "" →
        ∃ content rest, content = '\n' :: escapeBlock t.toList ++ ['\n'] ∧
          Delimits text [] content rest ∧
          readBlock (content ++ (tripled ++ rest)) = some ('\n' :: t.toList ++ ['\n'], rest)) ∧
      ∀ before t line after, rows s d = before ++ (some t, line) :: after → t ≠ "" →
        ∃ front rest, Delimits text front (escapeBlock t.toList) ('\n' :: ' ' :: ' ' :: line ++ rest) ∧
          (readBlock (escapeBlock t.toList ++ (tripled ++ '\n' :: ' ' :: ' ' :: line ++ rest)) =
              some (t.toList, '\n' :: ' ' :: ' ' :: line ++ rest) ↔
            Sealed t.toList) := by
  refine ⟨builtinText s d, encoder_builtin s d, ?_, ?_⟩
  · intro t ht hne
    obtain ⟨title, foot, htext⟩ := builtinText_eq s d
    rw [ht, framed_some _ _ hne] at htext
    refine ⟨_, '\n' :: (title ++ (rows s d).flatMap (fun r => row r.1 r.2) ++ foot), rfl, ?_, ?_⟩
    · rw [Delimits, htext]
      simp [tripled]
    · rw [List.append_assoc, List.singleton_append]
      exact readBlock_framed _ _
  · intro before t line after hrows hne
    obtain ⟨title, foot, htext⟩ := builtinText_eq s d
    refine ⟨framed "\"\"\"\n" "\n\"\"\"\n" (definitionDescription d) ++ title ++
        before.flatMap (fun r => row r.1 r.2) ++ [' ', ' '],
      '\n' :: after.flatMap (fun r => row r.1 r.2) ++ foot, ?_, readBlock_escapeBlock_iff _ _⟩
    rw [Delimits, htext, hrows, List.flatMap_append, List.flatMap_cons, row, framed_some _ _ hne]
    simp [tripled]

/-- An enum whose second value is described by four quotes. -/
def quotedLevels : Definition :=
  .enum ⟨"Level", some "How \"\"\"loud\"\"\" it is", [⟨"LOW", some "Not \"\"\"loud\"\"\""⟩,
    ⟨"HIGH", some "\"\"\"\""⟩]⟩

theorem encoder_builtin_delimits_levels :
    ∃ text, TemplateLibrary.builtin.encoder "enum" (scope (.new "default") quotedLevels) =
        .ok (String.ofList text) ∧
      (∃ content rest, Delimits text [] content rest ∧
        readBlock (content ++ (tripled ++ rest)) =
          some ('\n' :: "How \"\"\"loud\"\"\" it is".toList ++ ['\n'], rest)) ∧
      ∃ front content rest, Delimits text front content rest ∧
        readBlock (content ++ (tripled ++ rest)) = some ("Not \"\"\"loud\"\"\"".toList, rest) := by
  obtain ⟨text, htext, hown, hrows⟩ := encoder_builtin_delimits (.new "default") quotedLevels
  obtain ⟨content, rest, -, hat, hread⟩ := hown "How \"\"\"loud\"\"\" it is" rfl (by decide)
  obtain ⟨front, after, hrow, hiff⟩ :=
    hrows [] "Not \"\"\"loud\"\"\"" "LOW".toList _ rfl (by decide)
  exact ⟨text, htext, ⟨content, rest, hat, hread⟩, front, _, _, hrow, hiff.mpr (by decide)⟩

/-- Of the four quotes that describe a value a reader finds three, and takes the fourth for the first of
the closing ones. -/
theorem not_delimited_quotes :
    ∃ text front rest, TemplateLibrary.builtin.encoder "enum" (scope (.new "default") quotedLevels) =
        .ok (String.ofList text) ∧
      Delimits text front (escapeBlock "\"\"\"\"".toList) rest ∧ rest = "\n  HIGH\n\x7d\n".toList ∧
      readBlock (escapeBlock "\"\"\"\"".toList ++ (tripled ++ rest)) = some (tripled, '"' :: rest) := by
  refine ⟨builtinText (.new "default") quotedLevels,
    (builtinText (.new "default") quotedLevels).take 77, _, encoder_builtin _ quotedLevels, ?_, rfl, ?_⟩
  · unfold Delimits
    decide +kernel
  · decide +kernel

end ClassSchema.Artifact
