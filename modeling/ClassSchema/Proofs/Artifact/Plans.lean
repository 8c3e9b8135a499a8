import ClassSchema.Proofs.Artifact.FileName
import ClassSchema.Proofs.Artifact.Legible
import ClassSchema.Proofs.Build.Bound

/-!
# Plans in generated texts

The text of an object type gives the plans of its fields back if the fields are legible, and the text of
any other definition gives none if the mark of a directive does not stand in it.
-/

namespace ClassSchema

/-- A plan that is read back from its text. -/
structure Plan.Restorable (p : Plan) : Prop where
  writable : p.Writable
  ordered : p.Ordered
  nesting : p.value.nesting ≤ Datum.greatestDepth
  numbers : ∀ n ∈ p.value.numbers, n.ReadsBack

theorem Plan.restorable_new {r : Reference} (h : r.WellFormed) : (Plan.new r).Restorable where
  writable := (forall_node_iff _ _).mpr ⟨h, fun step hstep => by cases hstep⟩
  ordered := (forall_node_iff _ _).mpr ⟨rfl, fun step hstep => by cases hstep⟩
  nesting := by
    show max 0 0 + 1 ≤ 127
    omega
  numbers := by
    intro n hn
    cases hn

/-- An object type whose plans are read back from its text. -/
structure ObjectType.Legible (o : ObjectType) : Prop where
  quiet : ∀ t, o.description = some t → Artifact.Quiet (Artifact.escapeBlock t.toList)
  inline : ∀ i ∈ o.interfaces, '\n' ∉ i.toList
  fields : ∀ f ∈ o.fields.values, f.Legible
  plans : ∀ f ∈ o.fields.values, ∀ p ∈ f.resolver, p.Restorable

namespace Definition

/-- The plan of a field; only object types have any. -/
def plan? : Definition → String → Option Plan
  | .object o, field => (o.fields.get? field).bind Field.resolver
  | _, _ => none

/-- A text that gives just the plans of a definition. -/
def ReadFrom (d : Definition) (text : String) : Prop :=
  ∃ plans, Artifact.resolversIn text = .ok plans ∧ ∀ field, plans.get? field = d.plan? field

def Legible (s : Schema) : Definition → Prop
  | .object o => o.Legible
  | d => ¬ Artifact.directiveMark <:+: Artifact.builtinText s d

end Definition

namespace Artifact

theorem entry_directiveOf (f : Field) {p : Plan} (h : p.Restorable) :
    (directiveOf f p).entry = .ok (f.name, p) := by
  have hread := Datum.ofText?_text (v := .string p.text) (by simp [Value.numbers])
  have hquoted : (Value.string p.text).text.toList = Value.quoted p.text.toList := String.toList_ofList
  rw [Datum.ofText?, hquoted] at hread
  have hstring : Value.ofChars? (Value.quoted p.text.toList) = some (.string p.text) := by
    rw [Value.ofChars?, hread, Option.bind_some, Datum.value?_ofValue (by simp [Value.nesting])]
  have hplan := Plan.ofText?_text h.writable h.ordered h.nesting h.numbers
  simp [Directive.entry, Directive.plan?, directiveOf, hstring, Value.string?, hplan]

theorem traverse_directives {fs : List Field} (h : ∀ f ∈ fs, ∀ p ∈ f.resolver, p.Restorable) :
    traverse Directive.entry ((bound fs).map fun e => directiveOf e.1 e.2) =
      .ok ((bound fs).map fun e => (e.1.name, e.2)) := by
  rw [traverse_eq_ok_iff, List.map_map, List.map_map]
  apply List.map_congr_left
  intro e he
  obtain ⟨f, hf, hbound⟩ := List.mem_filterMap.mp he
  obtain ⟨p, hp, rfl⟩ := Option.map_eq_some_iff.mp hbound
  exact entry_directiveOf f (h f hf p hp)

/-! ### The text of an object type -/

variable {o : ObjectType} {name : String}

theorem newline_not_mem_implementsClause {names : List String} (h : ∀ i ∈ names, '\n' ∉ i.toList) :
    '\n' ∉ implementsClause names := by
  rw [implementsClause]
  split
  · simp
  · intro hmem
    have hjoined : '\n' ∈ separated " & ".toList (names.map String.toList) := by
      simpa [joinedNames] using hmem
    rcases mem_separated hjoined with hsep | ⟨x, hx, hin⟩
    · exact absurd hsep (by decide)
    · obtain ⟨i, hi, rfl⟩ := List.mem_map.mp hx
      exact h i hi hin

theorem readDirective_head (hname : isGraphName name = true) (r : List Char) :
    readDirective ("type".toList ++ ' ' :: (name.toList ++ r)) = none := by
  obtain ⟨hne, hall⟩ := isNameChar_of_isGraphName hname
  obtain ⟨c, cs, hchars⟩ := List.exists_cons_of_ne_nil hne
  obtain ⟨hword, hblank⟩ := isWordChar_of_isNameChar (hall c (hchars ▸ List.mem_cons_self))
  have hcolon : ':' ≠ c := by
    rintro rfl
    exact absurd hword (by decide)
  have hskip : skipBlanks (' ' :: c :: (cs ++ r)) = c :: (cs ++ r) := by
    have hfirst : skipBlanks (' ' :: c :: (cs ++ r)) = skipBlanks (c :: (cs ++ r)) := rfl
    rw [hfirst, skipBlanks, List.dropWhile_cons_of_neg (by simp [hblank])]
  have hrest : readRest (' ' :: c :: (cs ++ r)) = none := by
    have harguments : skipArguments (' ' :: c :: (cs ++ r)) = some (' ' :: c :: (cs ++ r)) := rfl
    rw [readRest, harguments, Option.bind_some, hskip, after?, if_neg hcolon]
    rfl
  rw [hchars, List.cons_append, readDirective_eq]
  show (if _ then none else (readRest (' ' :: c :: (cs ++ r))).map _) = none
  rw [hrest]
  simp

/-- Just the fields of a legible object type are found. -/
theorem directives_object (h : o.Legible) (hname : isGraphName o.name = true)
    (hplans : ∀ f ∈ o.fields.values, f.resolver.isSome) (s : Schema) :
    directives (String.ofList (builtinText s (.object o))) =
      (bound o.fields.values).map fun e => directiveOf e.1 e.2 := by
  -- The text is the description, one line up to the brace, the rows of the fields, and the last brace.
  have hnewline : '\n' ∉ "type".toList ++ ' ' :: (o.name.toList ++
      (implementsClause o.interfaces ++ [' ', '{'])) := by
    have hin := not_mem_of_isGraphName hname (c := '\n') (by decide)
    have himplements := newline_not_mem_implementsClause h.inline
    simp [hin, himplements]
  have hhead := readDirective_head hname (implementsClause o.interfaces ++ [' ', '{'] ++
    '\n' :: ((o.fields.values.flatMap fun f => row f.description (fieldLine f)) ++ ['}', '\n']))
  have hline := scanDirectives_fresh_line hnewline (by simp)
    (r := (o.fields.values.flatMap fun f => row f.description (fieldLine f)) ++ ['}', '\n'])
    (by simpa using hhead)
  have hunbound : ∀ f ∈ o.fields.values, f.resolver = none → f.Unbound := by
    intro f hf hnone
    have hsome := hplans f hf
    rw [hnone] at hsome
    cases hsome
  have hend : scanDirectives 0 true ['}', '\n'] = [] := scanDirectives_eq_nil (by decide) 0 true
  have htext : builtinText s (.object o) =
      framed "\"\"\"\n" "\n\"\"\"\n" o.description ++ ("type".toList ++ ' ' :: (o.name.toList ++
        (implementsClause o.interfaces ++ [' ', '{'])) ++ '\n' ::
          ((o.fields.values.flatMap fun f => row f.description (fieldLine f)) ++ ['}', '\n'])) := by
    simp [builtinText, opening, body]
  rw [directives, String.toList_ofList, htext, scanDirectives_framed_block h.quiet, hline,
    scanDirectives_rows h.fields hunbound, hend, List.append_nil]

theorem readFrom_object {r : Registry} (h : o.Legible) (hname : isGraphName o.name = true)
    (hbound : o.Bound r) (s : Schema) :
    (Definition.object o).ReadFrom (String.ofList (builtinText s (.object o))) := by
  have hmem : ∀ e ∈ o.fields.entries, e.2.name = e.1 ∧ e.2.Bound r := fun e he =>
    hbound.bound e.1 e.2 ((hbound.sorted.get?_eq_some_iff e.1 e.2).mpr he)
  have hplans : ∀ f ∈ o.fields.values, f.resolver.isSome := by
    intro f hf
    obtain ⟨e, he, rfl⟩ := List.mem_map.mp hf
    obtain ⟨-, p, hp, -⟩ := hmem e he
    rw [hp]
    rfl
  -- The directives come in the order of the fields, whose names are the keys, so none takes the place of
  -- another.
  have hpairs : (bound o.fields.values).map (fun e => (e.1.name, e.2)) =
      o.fields.entries.filterMap fun e => e.2.resolver.map fun p => (e.1, p) := by
    rw [bound, Dict.values, List.filterMap_map, List.map_filterMap]
    apply List.filterMap_congr
    intro e he
    simp [Function.comp_def, (hmem e he).1]
  have hresolvers : resolversIn (String.ofList (builtinText s (.object o))) =
      .ok (.ofList ((bound o.fields.values).map fun e => (e.1.name, e.2))) := by
    rw [resolversIn, directives_object h hname hplans, traverse_directives h.plans]
  refine ⟨_, hresolvers, fun field => ?_⟩
  rw [hpairs, Dict.get?_ofList_filterMap hbound.sorted]
  rfl

/-! ### Other definitions -/

theorem readFrom_unmarked {d : Definition} {s : Schema} (h : ¬ directiveMark <:+: builtinText s d)
    (hd : ∀ field, d.plan? field = none) : d.ReadFrom (String.ofList (builtinText s d)) := by
  have hnone : directives (String.ofList (builtinText s d)) = [] :=
    directives_eq_nil (by rwa [String.toList_ofList])
  refine ⟨.empty, ?_, fun field => (hd field).symm⟩
  rw [resolversIn, hnone]
  rfl

/-- The plans of a legible definition are read back from its text. -/
theorem readFrom_of_legible {r : Registry} {s : Schema} {d : Definition} (h : d.Legible s)
    (hname : isGraphName d.name = true) (hbound : d.Bound r) :
    d.ReadFrom (String.ofList (builtinText s d)) := by
  cases d with
  | object o => exact readFrom_object h hname hbound s
  | interface i => exact readFrom_unmarked h fun _ => rfl
  | input i => exact readFrom_unmarked h fun _ => rfl
  | union u => exact readFrom_unmarked h fun _ => rfl
  | enum e => exact readFrom_unmarked h fun _ => rfl
  | scalar t => exact readFrom_unmarked h fun _ => rfl

end Artifact

end ClassSchema
