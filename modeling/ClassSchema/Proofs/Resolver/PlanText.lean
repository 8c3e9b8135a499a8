import ClassSchema.Proofs.Resolver.Node
import ClassSchema.Proofs.Value.Canonical

/-!
# Texts of plans

A plan is written with its parts in a fixed order and its contexts as they are listed. Where the
contexts are in name order, the canonical text of a plan fixes its text.
-/

namespace ClassSchema

namespace Plan

/-- Every context in a plan lists its names in order, at every depth. -/
def Ordered (p : Plan) : Prop := ∀ q, Node q p → (Value.table q.context).ordered = .table q.context

/-- The context of a plan as it is written, unless it is empty. -/
def contextEntry (p : Plan) : Option Value :=
  if p.context.isEmpty then none else some (.table p.context)

theorem entries_eq (p : Plan) : p.entries =
    [("ref", .string p.reference.text)] ++ entryIfAny "middleware" (values p.middleware) ++
      entryIfAny "afterware" (values p.afterware) ++ entryIfSome "context" p.contextEntry := by
  obtain ⟨reference, middleware, afterware, context⟩ := p
  cases middleware <;> cases afterware <;> cases h : context.isEmpty <;>
    simp [entries, values, contextEntry, entryIfAny, entryIfSome, h]

private theorem map_entryIfAny (name : String) {vs ws : List Value}
    (h : vs.map Value.chars = ws.map Value.chars) :
    (entryIfAny name vs).map (fun e => (e.1, e.2.chars)) =
      (entryIfAny name ws).map (fun e => (e.1, e.2.chars)) := by
  have htext := Value.itemChars_congr h
  cases vs <;> cases ws
  · rfl
  · cases h
  · cases h
  · simp [entryIfAny, Value.chars, htext]

private theorem map_contextEntry {p q : Plan} (hp : p.Ordered) (hq : q.Ordered)
    (h : p.contextEntry.map Value.canonical = q.contextEntry.map Value.canonical) :
    (entryIfSome "context" p.contextEntry).map (fun e => (e.1, e.2.chars)) =
      (entryIfSome "context" q.contextEntry).map (fun e => (e.1, e.2.chars)) := by
  have htext (r : Plan) (hr : r.Ordered) :
      r.contextEntry.map Value.canonical = r.contextEntry.map Value.chars := by
    unfold contextEntry
    split
    · rfl
    · exact congrArg some (Value.canonical_of_ordered (hr r .root))
  rw [htext p hp, htext q hq] at h
  revert h
  cases p.contextEntry <;> cases q.contextEntry <;> simp [entryIfSome]

mutual

theorem chars_eq_of_canonical (p q : Plan) (hp : p.Ordered) (hq : q.Ordered)
    (h : p.value.canonical = q.value.canonical) : p.value.chars = q.value.chars := by
  obtain ⟨reference, middleware, afterware, context⟩ := p
  have hget := Value.get?_canonical_of_entries h
  simp only [entries_eq, Dict.get?_append, get?_single, get?_entryIfAny, get?_entryIfSome] at hget
  have hpsteps := ((forall_node_iff _ _).mp hp).2
  have hqsteps := ((forall_node_iff _ _).mp hq).2
  have hreference := hget "ref"
  have hmiddleware := hget "middleware"
  have hafterware := hget "afterware"
  have hcontext := hget "context"
  simp only [String.reduceEq, false_and, true_and, if_false, if_true, Option.none_or,
    Option.or_none] at hreference hmiddleware hafterware hcontext
  have hbefore := map_chars_of_canonical middleware q.middleware
    (fun r hr => hpsteps r (List.mem_append_left _ hr))
    (fun r hr => hqsteps r (List.mem_append_left _ hr)) (Value.map_canonical_of_any hmiddleware)
  have hafter := map_chars_of_canonical afterware q.afterware
    (fun r hr => hpsteps r (List.mem_append_right _ hr))
    (fun r hr => hqsteps r (List.mem_append_right _ hr)) (Value.map_canonical_of_any hafterware)
  have hentries : (entries ⟨reference, middleware, afterware, context⟩).map
      (fun e => (e.1, e.2.chars)) = q.entries.map (fun e => (e.1, e.2.chars)) := by
    have htext := Value.string_inj_of_canonical (Option.some.inj hreference)
    simp only [entries_eq, List.map_append, map_entryIfAny _ hbefore, map_entryIfAny _ hafter,
      map_contextEntry hp hq hcontext, htext]
  show '{' :: Value.entryChars _ ++ ['}'] = '{' :: Value.entryChars _ ++ ['}']
  rw [Value.entryChars_congr hentries]

theorem map_chars_of_canonical (ps qs : List Plan) (hps : ∀ p ∈ ps, p.Ordered)
    (hqs : ∀ q ∈ qs, q.Ordered)
    (h : (values ps).map Value.canonical = (values qs).map Value.canonical) :
    (values ps).map Value.chars = (values qs).map Value.chars := by
  cases ps with
  | nil =>
    cases qs with
    | nil => rfl
    | cons q qs => cases h
  | cons p ps =>
    cases qs with
    | nil => cases h
    | cons q qs =>
      obtain ⟨hpq, hrest⟩ := List.cons.inj h
      have hhead := chars_eq_of_canonical p q (hps p List.mem_cons_self) (hqs q List.mem_cons_self)
        hpq
      have htail := map_chars_of_canonical ps qs (fun p hp => hps p (List.mem_cons_of_mem _ hp))
        (fun q hq => hqs q (List.mem_cons_of_mem _ hq)) hrest
      rw [values, values, List.map_cons, List.map_cons, htail]
      exact congrArg (· :: _) hhead

end

end Plan

end ClassSchema
