import ClassSchema.Proofs.Resolver.PlanReadBack
import ClassSchema.Proofs.Value.Merge

/-!
# Plans and their texts

What a text is read as has references that can be written and contexts in name order, however the text
spells it. So a plan that was read is read back from its own text, unless that nests too deep.
-/

namespace ClassSchema

namespace Reference

theorem wellFormed_of_decode {v : Value} {r : Reference} (h : decode v = some r) : r.WellFormed := by
  obtain ⟨s, -, hs⟩ := Option.bind_eq_some_iff.mp h
  cases hparse : parse s with
  | error e => simp [hparse, Except.toOption] at hs
  | ok q =>
    obtain rfl : q = r := by simpa [hparse, Except.toOption] using hs
    exact wellFormed_of_parse hparse

end Reference

namespace Plan

/-- A plan whose references can be written and whose contexts are in name order. -/
def Proper (p : Plan) : Prop := p.Writable ∧ p.Ordered

theorem proper_iff (p : Plan) : p.Proper ↔
    (p.reference.WellFormed ∧ (Value.table p.context).ordered = .table p.context) ∧
      ∀ step ∈ p.steps, step.Proper := by
  have hwritable := forall_node_iff (fun q => q.reference.WellFormed) p
  have hordered := forall_node_iff (fun q => (Value.table q.context).ordered = .table q.context) p
  simp only [Proper, Writable, Ordered, hwritable, hordered]
  constructor
  · rintro ⟨⟨hr, hrs⟩, hc, hcs⟩
    exact ⟨⟨hr, hc⟩, fun step hs => ⟨hrs step hs, hcs step hs⟩⟩
  · rintro ⟨⟨hr, hc⟩, hs⟩
    exact ⟨⟨hr, fun step h => (hs step h).1⟩, hc, fun step h => (hs step h).2⟩

/-- The parts of a plan that have been read are proper. -/
structure Draft.Proper (d : Draft) : Prop where
  reference : ∀ r ∈ d.reference, r.WellFormed
  middleware : ∀ p ∈ d.middleware.getD [], p.Proper
  afterware : ∀ p ∈ d.afterware.getD [], p.Proper
  context : (Value.table (d.context.getD .empty)).ordered = .table (d.context.getD .empty)

theorem Draft.Proper.finish {d : Draft} (hd : d.Proper) {p : Plan} (h : d.finish = some p) :
    p.Proper := by
  simp only [Draft.finish, Option.bind_eq_bind, Option.bind_eq_some_iff] at h
  obtain ⟨r, hr, h⟩ := h
  obtain rfl := Option.some.inj h
  exact (proper_iff _).mpr ⟨⟨hd.reference r hr, hd.context⟩,
    List.forall_mem_append.mpr ⟨hd.middleware, hd.afterware⟩⟩

theorem Proper.of_parts {r : Reference} {m a : List Plan} {c : Dict Value} (hr : r.WellFormed)
    (hm : ∀ p ∈ m, p.Proper) (ha : ∀ p ∈ a, p.Proper) (hc : (Value.table c).ordered = .table c) :
    Proper ⟨r, m, a, c⟩ :=
  (proper_iff _).mpr ⟨⟨hr, hc⟩, List.forall_mem_append.mpr ⟨hm, ha⟩⟩

private theorem ordered_empty : (Value.table .empty).ordered = .table .empty := rfl

mutual

theorem proper_of_decode (v : Value) {p : Plan} (h : decode v = some p) : p.Proper := by
  unfold decode at h
  split at h
  · next entries =>
    obtain ⟨d, hd, hfinish⟩ := Option.bind_eq_some_iff.mp h
    exact (proper_of_decodeEntries entries hd).finish hfinish
  · simp only [Option.bind_eq_bind, Option.bind_eq_some_iff] at h
    obtain ⟨reference, hr, h⟩ := h
    obtain rfl := Option.some.inj h
    exact .of_parts (Reference.wellFormed_of_decode hr) (by simp) (by simp) ordered_empty
  · next m =>
    simp only [Option.bind_eq_bind, Option.bind_eq_some_iff] at h
    obtain ⟨reference, hr, middleware, hm, h⟩ := h
    obtain rfl := Option.some.inj h
    exact .of_parts (Reference.wellFormed_of_decode hr) (proper_of_decodeEach m hm) (by simp)
      ordered_empty
  · next m a =>
    simp only [Option.bind_eq_bind, Option.bind_eq_some_iff] at h
    obtain ⟨reference, hr, middleware, hm, afterware, ha, h⟩ := h
    obtain rfl := Option.some.inj h
    exact .of_parts (Reference.wellFormed_of_decode hr) (proper_of_decodeEach m hm)
      (proper_of_decodeEach a ha) ordered_empty
  · next m a c =>
    simp only [Option.bind_eq_bind, Option.bind_eq_some_iff] at h
    obtain ⟨reference, hr, middleware, hm, afterware, ha, context, hc, h⟩ := h
    obtain rfl := Option.some.inj h
    exact .of_parts (Reference.wellFormed_of_decode hr) (proper_of_decodeEach m hm)
      (proper_of_decodeEach a ha) (Value.ordered_of_asTable hc)
  · cases h

theorem proper_of_decodeEach (vs : List Value) {ps : List Plan} (h : decodeEach vs = some ps) :
    ∀ p ∈ ps, p.Proper := by
  cases vs with
  | nil =>
    obtain rfl := Option.some.inj h
    simp
  | cons v vs =>
    simp only [decodeEach, Option.bind_eq_bind, Option.bind_eq_some_iff] at h
    obtain ⟨p, hp, rest, hrest, h⟩ := h
    obtain rfl := Option.some.inj h
    exact List.forall_mem_cons.mpr ⟨proper_of_decode v hp, proper_of_decodeEach vs hrest⟩

theorem proper_of_decodeEntries (es : List (String × Value)) {d : Draft}
    (h : decodeEntries es = some d) : d.Proper := by
  match es with
  | [] =>
    obtain rfl := Option.some.inj h
    exact ⟨by simp, by simp, by simp, ordered_empty⟩
  | (key, v) :: es =>
    rw [decodeEntries, Option.bind_eq_bind, Option.bind_eq_some_iff] at h
    obtain ⟨rest, hrest, h⟩ := h
    have hproper := proper_of_decodeEntries es hrest
    split at h
    · split at h
      · cases h
      · obtain ⟨r, hr, h⟩ := Option.bind_eq_some_iff.mp h
        obtain rfl := Option.some.inj h
        refine { hproper with reference := ?_ }
        simpa using Reference.wellFormed_of_decode hr
    · split at h
      · split at h
        · next items =>
          split at h
          · cases h
          · obtain ⟨ps, hps, h⟩ := Option.bind_eq_some_iff.mp h
            obtain rfl := Option.some.inj h
            exact { hproper with middleware := proper_of_decodeEach items hps }
        · cases h
      · split at h
        · split at h
          · next items =>
            split at h
            · cases h
            · obtain ⟨ps, hps, h⟩ := Option.bind_eq_some_iff.mp h
              obtain rfl := Option.some.inj h
              exact { hproper with afterware := proper_of_decodeEach items hps }
          · cases h
        · split at h
          · split at h
            · cases h
            · obtain ⟨c, hc, h⟩ := Option.bind_eq_some_iff.mp h
              obtain rfl := Option.some.inj h
              exact { hproper with context := Value.ordered_of_asTable hc }
          · obtain rfl := Option.some.inj h
            exact hproper

end

/-- What a text is read as can be written, and is in name order throughout. -/
theorem proper_of_ofText? {t : String} {p : Plan} (h : ofText? t = some p) : p.Proper := by
  obtain ⟨v, -, hv⟩ := Option.bind_eq_some_iff.mp h
  exact proper_of_decode v hv

theorem nesting_of_ofText?_text {p : Plan} (hnumbers : ∀ n ∈ p.value.numbers, n.ReadsBack)
    (h : ofText? p.text = some p) : p.value.nesting ≤ Datum.greatestDepth := by
  have hread := Datum.ofText?_text hnumbers
  have hprune := prune_value p (s := shape) rfl
  by_contra hdeep
  have hnone : (Datum.ofValue p.value).value? = none := by
    rw [Datum.value?, Datum.fits_ofValue, decide_eq_false hdeep]
    rfl
  simp [ofText?, Shape.ofText?, text, hread, hprune, hnone] at h

/-- A plan is read back from its text just when its references can be written, its contexts are in name
order and the text nests no deeper than a text may. Of these a plan that was read from any text can
only fail the last. -/
theorem ofText?_text_iff {p : Plan} (hnumbers : ∀ n ∈ p.value.numbers, n.ReadsBack) :
    (ofText? p.text = some p ↔
      p.Writable ∧ p.Ordered ∧ p.value.nesting ≤ Datum.greatestDepth) ∧
    ∀ t, ofText? t = some p →
      (ofText? p.text = some p ↔ p.value.nesting ≤ Datum.greatestDepth) := by
  have hiff : ofText? p.text = some p ↔
      p.Writable ∧ p.Ordered ∧ p.value.nesting ≤ Datum.greatestDepth := by
    constructor
    · intro h
      obtain ⟨hwritable, hordered⟩ := proper_of_ofText? h
      exact ⟨hwritable, hordered, nesting_of_ofText?_text hnumbers h⟩
    · rintro ⟨hwritable, hordered, hnesting⟩
      exact ofText?_text hwritable hordered hnesting hnumbers
  refine ⟨hiff, ?_⟩
  intro t ht
  obtain ⟨hwritable, hordered⟩ := proper_of_ofText? ht
  rw [hiff]
  exact ⟨fun h => h.2.2, fun h => ⟨hwritable, hordered, h⟩⟩

/-- A guarded read, spelled as lists of parts and with a member that nothing asks for. -/
def listedText : String :=
  "[\" Builtin :: read\", [[\"Builtin::nullGuard\", " ++
    "[\x7b\"note\": 1e999, \"ref\": \"Builtin::first\"\x7d]]], [], " ++
    "\x7b\"say\": \"\\\"\\n\\u0001é\", \"cap\": [-0.5, null, \x7b\"b\": 1, \"a\": true\x7d]\x7d]"

def listedTextOwn : String :=
  "\x7b\"ref\":\"Builtin::read\",\"middleware\":[\x7b\"ref\":\"Builtin::nullGuard\"," ++
    "\"middleware\":[\x7b\"ref\":\"Builtin::first\"\x7d]\x7d]," ++
    "\"context\":\x7b\"cap\":[-0.5,null,\x7b\"a\":true,\"b\":1\x7d],\"say\":\"\\\"\\n\\u0001é\"\x7d\x7d"

theorem ofText?_text_listed : ∃ p, ofText? listedText = some p ∧ p.text = listedTextOwn ∧
    (∀ n ∈ p.value.numbers, n.ReadsBack) ∧ p.value.nesting ≤ Datum.greatestDepth ∧
      ofText? listedTextOwn = some p := by
  have hcheck : (ofText? listedText).any (fun p => p.text = listedTextOwn ∧
      (∀ n ∈ p.value.numbers, n.ReadsBack) ∧ p.value.nesting ≤ Datum.greatestDepth) = true := by
    decide +kernel
  cases hread : ofText? listedText with
  | none => simp [hread] at hcheck
  | some p =>
    rw [hread, Option.any_some, decide_eq_true_iff] at hcheck
    obtain ⟨htext, hnumbers, hnesting⟩ := hcheck
    refine ⟨p, rfl, htext, hnumbers, hnesting, ?_⟩
    rw [← htext]
    exact ((ofText?_text_iff hnumbers).2 listedText hread).mpr hnesting

end Plan

end ClassSchema
