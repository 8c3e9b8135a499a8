import ClassSchema.Proofs.Artifact.Plans
import ClassSchema.Proofs.Schema.TypeSpelling

/-!
# Lines of fields

Lines of fields, as the template of object types prints them, give the plans of those fields and nothing else,
if names are GraphQL names and types are such names with brackets and marks around them.
-/

namespace ClassSchema

/-- A field whose name and arguments have GraphQL names, and whose types are spelled by one name each. -/
structure Field.Spelled (f : Field) : Prop where
  named : isGraphName f.name = true
  typed : IsTypeSpelling f.type
  arguments : ∀ a ∈ f.args, isGraphName a.name = true ∧ IsTypeSpelling a.type

namespace Artifact

variable {f : Field} {fs : List Field} {p : Plan}

theorem mem_argumentChars {a : Argument} {c : Char} (hname : isGraphName a.name = true)
    (htype : IsTypeSpelling a.type) (h : c ∈ argumentChars a) :
    isSpellingChar c = true ∨ c = ':' ∨ c = ' ' := by
  rw [argumentChars, List.mem_append, List.mem_cons, List.mem_cons] at h
  rcases h with h | h | h | h
  · exact .inl (isSpellingChar_of_isGraphName hname c h)
  · exact .inr (.inl h)
  · exact .inr (.inr h)
  · exact .inl ((isSpellingChar_of_isTypeSpelling htype).2 c h)

theorem mem_listed {args : List Argument} {c : Char} (h : c ∈ listed args) :
    c ∈ ['(', ')', ',', ' '] ∨ ∃ a ∈ args, c ∈ argumentChars a := by
  cases args with
  | nil => cases h
  | cons a args =>
    rw [listed, List.cons_append, List.mem_cons, List.mem_append] at h
    rcases h with rfl | h | h
    · exact .inl (by simp)
    · rcases mem_separated h with hsep | ⟨x, hx, hc⟩
      · exact .inl (List.mem_append_right ['(', ')'] hsep)
      · obtain ⟨b, hb, rfl⟩ := List.mem_map.mp hx
        exact .inr ⟨b, hb, hc⟩
    · obtain rfl := List.mem_singleton.mp h
      exact .inl (by decide)

theorem mem_signatureChars (h : f.Spelled) {c : Char} (hc : c ∈ signatureChars f.name f.args f.type) :
    isSpellingChar c = true ∨ c ∈ ['(', ')', ',', ' ', ':'] := by
  rw [signatureChars_eq] at hc
  simp only [List.mem_append, List.mem_cons] at hc
  rcases hc with hc | hc | rfl | rfl | hc
  · exact .inl (isSpellingChar_of_isGraphName h.named c hc)
  · rcases mem_listed hc with hmark | ⟨a, ha, hc⟩
    · exact .inr (List.mem_append_left [':'] hmark)
    · obtain ⟨hname, htype⟩ := h.arguments a ha
      rcases mem_argumentChars hname htype hc with hc | rfl | rfl
      · exact .inl hc
      · exact .inr (by decide)
      · exact .inr (by decide)
  · exact .inr (by decide)
  · exact .inr (by decide)
  · exact .inl ((isSpellingChar_of_isTypeSpelling h.typed).2 c hc)

/-- A field without its description, of which the line does not speak. -/
def undescribed (f : Field) : Field := { f with description := none }

end Artifact

open Artifact

namespace Field.Spelled

variable {f : Field}

theorem legible (h : f.Spelled) : (undescribed f).Legible where
  named := mt String.toList_eq_nil_iff.mpr (isNameChar_of_isGraphName h.named).1
  word c hc := (isWordChar_of_isNameChar ((isNameChar_of_isGraphName h.named).2 c hc)).1
  closed a ha hmem := by
    obtain ⟨hname, htype⟩ := h.arguments a ha
    rcases mem_argumentChars hname htype hmem with hc | hc | hc
    · exact absurd hc (by decide)
    · exact absurd hc (by decide)
    · exact absurd hc (by decide)
  inline c hc := by
    have htype := (isSpellingChar_of_isTypeSpelling h.typed).2 c ((List.dropWhile_suffix _).subset hc)
    constructor
    · rintro rfl
      exact absurd htype (by decide)
    · rintro rfl
      exact absurd htype (by decide)
  quiet t ht := by cases ht

theorem unbound (h : f.Spelled) (hf : f.resolver = none) : (undescribed f).Unbound where
  unbound := hf
  line := by
    have hline : fieldLine (undescribed f) = signatureChars f.name f.args f.type := by
      simp [fieldLine, undescribed, hf]
    intro hmem
    rcases mem_signatureChars h (hline ▸ hmem) with hc | hc
    · exact absurd hc (by decide)
    · exact absurd hc (by decide)
  typed := by
    obtain ⟨hne, htype⟩ := isSpellingChar_of_isTypeSpelling h.typed
    obtain ⟨c, cs, hchars⟩ := List.exists_cons_of_ne_nil hne
    have hc := isBlank_of_isSpellingChar (htype c (hchars ▸ List.mem_cons_self))
    show skipBlanks f.type.toList ≠ []
    rw [hchars, skipBlanks, List.dropWhile_cons_of_neg (by simp [hc])]
    simp

end Field.Spelled

namespace Artifact

/-- The lines of fields, indented and ended as the template does it. -/
def linesText (fs : List Field) : String := String.ofList (fs.flatMap fun f => row none (fieldLine f))

/-- The plans of fields under their names. -/
def planEntries (fs : List Field) : List (String × Plan) :=
  fs.filterMap fun f => f.resolver.map fun p => (f.name, p)

theorem resolversIn_linesText (hfs : ∀ f ∈ fs, f.Spelled)
    (hplans : ∀ f ∈ fs, ∀ p ∈ f.resolver, p.Restorable) :
    resolversIn (linesText fs) = .ok (.ofList (planEntries fs)) := by
  have htext : (linesText fs).toList =
      ((fs.map undescribed).flatMap fun f => row f.description (fieldLine f)) ++ [] := by
    rw [linesText, String.toList_ofList, List.append_nil, List.flatMap_map]
    rfl
  have hentries : (bound (fs.map undescribed)).map (fun e => (e.1.name, e.2)) = planEntries fs := by
    rw [bound, planEntries, List.filterMap_map, List.map_filterMap]
    apply List.filterMap_congr
    intro f _
    rw [Function.comp_apply, Option.map_map]
    rfl
  have hlegible : ∀ f ∈ fs.map undescribed, f.Legible :=
    List.forall_mem_map.mpr fun f hf => (hfs f hf).legible
  have hunbound : ∀ f ∈ fs.map undescribed, f.resolver = none → f.Unbound :=
    List.forall_mem_map.mpr fun f hf hnone => (hfs f hf).unbound hnone
  have hrows := scanDirectives_rows hlegible hunbound []
  have hrest : scanDirectives 0 true [] = [] := rfl
  have hplanned : ∀ f ∈ fs.map undescribed, ∀ p ∈ f.resolver, p.Restorable :=
    List.forall_mem_map.mpr hplans
  rw [resolversIn, directives, htext, hrows, hrest, List.append_nil,
    traverse_directives hplanned, hentries]

theorem nodup_planEntries (hnames : (fs.map Field.name).Nodup) : ((planEntries fs).map (·.1)).Nodup := by
  have hpairs : fs.Pairwise fun f g => f.name ≠ g.name := List.pairwise_map.mp hnames
  apply List.pairwise_map.mpr
  refine List.Pairwise.filterMap _ (fun f g hne e he e' he' => ?_) hpairs
  obtain ⟨p, -, rfl⟩ := Option.map_eq_some_iff.mp he
  obtain ⟨q, -, rfl⟩ := Option.map_eq_some_iff.mp he'
  exact hne

/-- The line of a field with a plan gives this plan under the name of the field, and lines of fields with
different names give the plans of all the fields that have one. -/
theorem resolversIn_lines (hfs : ∀ f ∈ fs, f.Spelled)
    (hplans : ∀ f ∈ fs, ∀ p ∈ f.resolver, p.Restorable) (hnames : (fs.map Field.name).Nodup) :
    (∀ f ∈ fs, ∀ p ∈ f.resolver, resolversIn (linesText [f]) = .ok ⟨[(f.name, p)]⟩) ∧
      ∃ plans, resolversIn (linesText fs) = .ok plans ∧ plans.Sorted ∧
        ∀ name p, plans.get? name = some p ↔ ∃ f ∈ fs, f.name = name ∧ f.resolver = some p := by
  refine ⟨fun f hf p hp => ?_, _, resolversIn_linesText hfs hplans, Dict.sorted_ofList _, fun name p => ?_⟩
  · have hone : planEntries [f] = [(f.name, p)] := by
      have hresolver : f.resolver = some p := hp
      simp [planEntries, hresolver]
    rw [resolversIn_linesText (by simpa using hfs f hf) (by simpa using hplans f hf), hone]
    rfl
  · rw [Dict.get?_ofList_eq_some_iff (nodup_planEntries hnames), planEntries, List.mem_filterMap]
    refine exists_congr fun f => and_congr_right fun _ => ?_
    simp [and_comm]

section Example

/-- A plan with a guard before it, and with quotes, a backslash and a control character in its context. -/
def guardedTitle : Plan :=
  ⟨⟨"Builtin", "read"⟩, [.new ⟨"Builtin", "nullGuard"⟩], [], .ofList [("say", .string "\"\\\n\x01é\") @")]⟩

theorem restorable_guardedTitle : guardedTitle.Restorable := by
  have hguard : (Plan.new ⟨"Builtin", "nullGuard"⟩).Restorable := Plan.restorable_new (by decide)
  refine ⟨?_, ?_, by decide, by decide⟩
  · refine (Plan.forall_node_iff _ _).mpr ⟨by decide, fun step hstep => ?_⟩
    obtain rfl := List.mem_singleton.mp hstep
    exact hguard.writable
  · refine (Plan.forall_node_iff _ _).mpr ⟨rfl, fun step hstep => ?_⟩
    obtain rfl := List.mem_singleton.mp hstep
    exact hguard.ordered

/-- A field with arguments and a plan. -/
def titleField : Field :=
  ⟨"title", "[String]!", none, [⟨"lang", "[String!]"⟩, ⟨"max", "Int"⟩], some guardedTitle⟩

/-- A field without a plan. -/
def idField : Field := ⟨"id", "ID!", none, [], none⟩

theorem resolversIn_lines_title : (∀ f ∈ [idField, titleField], f.Spelled) ∧ guardedTitle.Restorable ∧
    ∃ plans, resolversIn (linesText [idField, titleField]) = .ok plans ∧
      plans.get? "title" = some guardedTitle ∧ plans.get? "id" = none := by
  have hid : idField.Spelled :=
    ⟨by decide, ⟨[], "ID", ['!'], by decide, by simp, by simp, rfl⟩, by simp [idField]⟩
  have htitle : titleField.Spelled := by
    refine ⟨by decide, ⟨['['], "String", [']', '!'], by decide, by simp, by simp, rfl⟩, ?_⟩
    show ∀ a ∈ [(⟨"lang", "[String!]"⟩ : Argument), ⟨"max", "Int"⟩], _
    rw [List.forall_mem_cons, List.forall_mem_singleton]
    exact ⟨⟨by decide, ['['], "String", ['!', ']'], by decide, by simp, by simp, rfl⟩,
      by decide, [], "Int", [], by decide, by simp, by simp, rfl⟩
  have hfs : ∀ f ∈ [idField, titleField], f.Spelled := by
    rw [List.forall_mem_cons, List.forall_mem_singleton]
    exact ⟨hid, htitle⟩
  have hplans : ∀ f ∈ [idField, titleField], ∀ p ∈ f.resolver, p.Restorable := by
    simp [idField, titleField, restorable_guardedTitle]
  obtain ⟨-, plans, hresolvers, -, hget⟩ := resolversIn_lines hfs hplans (by decide)
  refine ⟨hfs, restorable_guardedTitle, plans, hresolvers, ?_, ?_⟩
  · exact (hget "title" guardedTitle).mpr ⟨titleField, by simp, rfl, rfl⟩
  · refine Option.eq_none_iff_forall_ne_some.mpr fun p hp => ?_
    obtain ⟨f, hf, hname, hresolver⟩ := (hget "id" p).mp hp
    rcases List.mem_pair.mp hf with rfl | rfl
    · cases hresolver
    · exact absurd hname (by decide)

end Example

end Artifact

end ClassSchema
