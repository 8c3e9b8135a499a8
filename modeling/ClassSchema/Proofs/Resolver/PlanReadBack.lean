import ClassSchema.Proofs.Resolver.PlanText
import ClassSchema.Proofs.Resolver.Spelling
import ClassSchema.Proofs.Value.Prune
import ClassSchema.Proofs.Value.ReadBack

/-!
# Reading plans back

A plan is read back from its text, if its references can be written, its contexts are in name order,
its text does not nest too deep, and its numbers are read back.
-/

namespace ClassSchema

namespace Plan

open Datum (ofValue ofItems ofMembers)

/-- Whether the references of a plan can stand in a text. -/
def Writable (p : Plan) : Prop := ∀ q, Node q p → q.reference.WellFormed

private theorem prune_entryIfSome (name : String) (hname : shape.member? name = some .any)
    (v : Option Value) : Shape.pruneEntries shape shape (ofMembers (entryIfSome name v)) =
      ofMembers (entryIfSome name v) := by
  cases v with
  | none => rfl
  | some v => simp only [entryIfSome, ofMembers, Shape.pruneEntries, hname, Shape.prune_any]

private theorem prune_entryIfAny (name : String) (hname : shape.member? name = some (.list .again))
    {vs : List Value}
    (hvs : Shape.pruneItems shape (.list .again) 0 (ofItems vs) = ofItems vs) :
    Shape.pruneEntries shape shape (ofMembers (entryIfAny name vs)) =
      ofMembers (entryIfAny name vs) := by
  have hlist : Shape.within shape (.list .again) = .list .again := rfl
  cases vs with
  | nil => rfl
  | cons v vs =>
    simp only [entryIfAny, ofMembers, Shape.pruneEntries, hname, ofValue, Shape.prune, hlist, hvs]

mutual

theorem prune_value (p : Plan) {s : Shape} (hs : Shape.within shape s = shape) :
    Shape.prune shape s (ofValue p.value) = ofValue p.value := by
  obtain ⟨reference, middleware, afterware, context⟩ := p
  have hbefore := prune_entryIfAny "middleware" rfl (pruneItems_values middleware 0)
  have hafter := prune_entryIfAny "afterware" rfl (pruneItems_values afterware 0)
  have hreference := prune_entryIfSome "ref" rfl (some (.string reference.text))
  have hcontext := prune_entryIfSome "context" rfl
    (contextEntry ⟨reference, middleware, afterware, context⟩)
  show Shape.prune shape s (ofValue (.table ⟨entries _⟩)) = ofValue (.table ⟨entries _⟩)
  rw [ofValue, Shape.prune, hs, entries_eq, Datum.ofMembers_append, Datum.ofMembers_append,
    Datum.ofMembers_append, Shape.pruneEntries_append, Shape.pruneEntries_append,
    Shape.pruneEntries_append, hbefore, hafter, hcontext]
  rfl

theorem pruneItems_values (ps : List Plan) (index : Nat) :
    Shape.pruneItems shape (.list .again) index (ofItems (values ps)) = ofItems (values ps) := by
  cases ps with
  | nil => rfl
  | cons p ps =>
    have hp := prune_value p (s := .again) rfl
    rw [values, ofItems, Shape.pruneItems, Shape.item, pruneItems_values ps]
    exact congrArg (· :: _) hp

end

private theorem decodeEntries_context {p : Plan}
    (hp : (Value.table p.context).ordered = .table p.context) :
    ∃ found, decodeEntries (entryIfSome "context" p.contextEntry) =
      some { context := found } ∧ found.getD .empty = p.context := by
  have htable : (Value.table p.context).asTable = some p.context := by
    rw [Value.asTable, hp]
    rfl
  rw [contextEntry]
  split
  · next hempty =>
    refine ⟨none, rfl, ?_⟩
    show Dict.empty = p.context
    rw [Dict.empty, ← List.isEmpty_iff.mp hempty]
  · exact ⟨some p.context, by simp [entryIfSome, decodeEntries, htable], rfl⟩

private theorem decodeEntries_afterware {ps : List Plan} (hps : decodeEach (values ps) = some ps)
    {es : List (String × Value)} {d : Draft} (h : decodeEntries es = some d)
    (hd : d.afterware = none) :
    ∃ found, decodeEntries (entryIfAny "afterware" (values ps) ++ es) =
      some { d with afterware := found } ∧ found.getD [] = ps := by
  cases ps with
  | nil => exact ⟨none, by rw [← hd]; exact h, rfl⟩
  | cons p ps =>
    rw [values] at hps
    exact ⟨some (p :: ps), by simp [entryIfAny, values, decodeEntries, h, hd, hps], rfl⟩

private theorem decodeEntries_middleware {ps : List Plan} (hps : decodeEach (values ps) = some ps)
    {es : List (String × Value)} {d : Draft} (h : decodeEntries es = some d)
    (hd : d.middleware = none) :
    ∃ found, decodeEntries (entryIfAny "middleware" (values ps) ++ es) =
      some { d with middleware := found } ∧ found.getD [] = ps := by
  cases ps with
  | nil => exact ⟨none, by rw [← hd]; exact h, rfl⟩
  | cons p ps =>
    rw [values] at hps
    exact ⟨some (p :: ps), by simp [entryIfAny, values, decodeEntries, h, hd, hps], rfl⟩

mutual

theorem decode_value (p : Plan) (hreferences : p.Writable) (hordered : p.Ordered) :
    decode p.value = some p := by
  obtain ⟨reference, middleware, afterware, context⟩ := p
  obtain ⟨hreference, hsteps⟩ := (forall_node_iff _ _).mp hreferences
  obtain ⟨hcontext, hcontexts⟩ := (forall_node_iff _ _).mp hordered
  have hbefore := decodeEach_values middleware
    (fun q hq => hsteps q (List.mem_append_left _ hq))
    (fun q hq => hcontexts q (List.mem_append_left _ hq))
  have hafter := decodeEach_values afterware
    (fun q hq => hsteps q (List.mem_append_right _ hq))
    (fun q hq => hcontexts q (List.mem_append_right _ hq))
  obtain ⟨context', hdecode, hcontext'⟩ := decodeEntries_context hcontext
  obtain ⟨afterware', hdecode, hafter'⟩ := decodeEntries_afterware hafter hdecode rfl
  obtain ⟨middleware', hdecode, hbefore'⟩ := decodeEntries_middleware hbefore hdecode rfl
  show decode (.table ⟨entries _⟩) = _
  rw [decode, entries_eq, List.append_assoc, List.append_assoc, List.singleton_append, decodeEntries,
    hdecode]
  simp [Reference.decode_text hreference, Draft.finish, hbefore', hafter', hcontext']

theorem decodeEach_values (ps : List Plan) (hreferences : ∀ p ∈ ps, p.Writable)
    (hordered : ∀ p ∈ ps, p.Ordered) : decodeEach (values ps) = some ps := by
  cases ps with
  | nil => rfl
  | cons p ps =>
    have hp := decode_value p (hreferences p List.mem_cons_self) (hordered p List.mem_cons_self)
    have hps := decodeEach_values ps (fun q hq => hreferences q (List.mem_cons_of_mem _ hq))
      fun q hq => hordered q (List.mem_cons_of_mem _ hq)
    rw [value] at hp
    simp [values, decodeEach, hp, hps]

end

/-- A plan that can be written is read back from its text. -/
theorem ofText?_text {p : Plan} (hreferences : p.Writable) (hordered : p.Ordered)
    (hnesting : p.value.nesting ≤ Datum.greatestDepth) (hnumbers : ∀ n ∈ p.value.numbers, n.ReadsBack) :
    ofText? p.text = some p := by
  have hread := Datum.ofText?_text hnumbers
  have hprune := prune_value p (s := shape) rfl
  rw [ofText?, Shape.ofText?, text, hread]
  simp [hprune, Datum.value?_ofValue hnesting, decode_value p hreferences hordered]

end Plan

end ClassSchema
