import ClassSchema.Build.Fields
import ClassSchema.Proofs.Value.Canonical

/-!
# Reading by pages

What the plans of generated operations give when they are run with the built-in resolvers: the items of a
collection that the arguments match, cut into pages that leave nothing out, or the first of them.
-/

namespace ClassSchema

namespace Builtin

variable {args : Dict Value} {item : Value} {items : List Value} {source : Value} {key : String}

/-! ### Items that match -/

/-- The item has every argument as an equal member, except those for paging and those that are null. -/
def Matches (args : Dict Value) (item : Value) : Prop :=
  ∀ e ∈ args.entries, e.1 ≠ "offset" → e.1 ≠ "limit" → e.2.isNull = false →
    ∃ v, item.member? e.1 = some v ∧ v.same e.2 = true

theorem meets_criteria_iff : meets (criteria args) item = true ↔ Matches args item := by
  simp only [meets, List.all_eq_true, criteria, List.mem_filter, Matches, Bool.and_eq_true,
    decide_eq_true_eq, Bool.not_eq_true', and_imp]
  refine forall₂_congr fun e _ => ?_
  refine imp_congr_right fun _ => imp_congr_right fun _ => imp_congr_right fun _ => ?_
  cases item.member? e.1 <;> simp

instance (args : Dict Value) (item : Value) : Decidable (Matches args item) :=
  decidable_of_iff _ meets_criteria_iff

theorem filter_criteria (args : Dict Value) (items : List Value) :
    (if (criteria args).isEmpty then items else items.filter (meets (criteria args))) =
      items.filter (Matches args ·) := by
  have hmatches : items.filter (meets (criteria args)) = items.filter (Matches args ·) := by
    refine List.filter_congr fun item _ => ?_
    rw [Bool.eq_iff_iff, decide_eq_true_eq]
    exact meets_criteria_iff
  rw [← hmatches]
  split
  · next hnone =>
    rw [List.isEmpty_iff.mp hnone]
    exact (List.filter_eq_self.mpr fun _ _ => rfl).symm
  · rfl

/-! ### Arguments of a page -/

/-- Arguments that ask for a page. -/
def pageArgs (args : Dict Value) (offset limit : ℕ) : Dict Value :=
  (args.insert "offset" (.integer offset)).insert "limit" (.integer limit)

theorem filter_place {α : Type} {keep : String × α → Bool} {key : String} (value : α)
    (hkeep : ∀ v, keep (key, v) = false) (l : List (String × α)) :
    (Dict.place key value l).filter keep = l.filter keep := by
  induction l with
  | nil => simp [Dict.place, hkeep]
  | cons e l ih =>
    obtain ⟨name, old⟩ := e
    rw [Dict.place]
    split
    · next hname =>
      subst hname
      simp [hkeep]
    · split
      · simp [hkeep]
      · rw [List.filter_cons, List.filter_cons, ih]

theorem criteria_pageArgs (args : Dict Value) (offset limit : ℕ) :
    criteria (pageArgs args offset limit) = criteria args := by
  rw [criteria, pageArgs, Dict.insert, filter_place _ (by simp), Dict.insert,
    filter_place _ (by simp), ← criteria]

theorem matches_pageArgs (args : Dict Value) (offset limit : ℕ) (item : Value) :
    Matches (pageArgs args offset limit) item ↔ Matches args item := by
  rw [← meets_criteria_iff, criteria_pageArgs, meets_criteria_iff]

theorem countArg_pageArgs (args : Dict Value) (offset limit : ℕ) :
    countArg (pageArgs args offset limit) "offset" = .ok (some offset) ∧
      countArg (pageArgs args offset limit) "limit" = .ok (some limit) := by
  constructor
  · have hget : (pageArgs args offset limit).get? "offset" = some (.integer offset) := by
      simp [pageArgs]
    rw [countArg, hget]
    rfl
  · have hget : (pageArgs args offset limit).get? "limit" = some (.integer limit) := by
      simp [pageArgs]
    rw [countArg, hget]
    rfl

/-! ### Pages -/

theorem flatMap_page (n : ℕ) (items : List Value) (m : ℕ) :
    (List.range m).flatMap (fun k => page (k * n) (some n) items) = items.take (m * n) := by
  induction m with
  | zero => simp
  | succ m ih =>
    rw [List.range_succ, List.flatMap_append, ih, List.flatMap_singleton, page, Nat.succ_mul,
      List.take_add]

theorem length_page_of_ne_nil {n j k : ℕ} (hjk : j < k)
    (hne : page (k * n) (some n) items ≠ []) : (page (j * n) (some n) items).length = n := by
  have hmore : k * n < items.length := by
    by_contra hle
    refine hne ?_
    rw [page, List.drop_eq_nil_of_le (by omega), List.take_nil]
  have hnext : (j + 1) * n ≤ k * n := Nat.mul_le_mul_right n hjk
  rw [Nat.succ_mul] at hnext
  rw [page, List.length_take, List.length_drop]
  omega

/-! ### The functions in a chain -/

/-- The items that a source holds under a key: none if there is nothing or null. -/
def Holds (source : Value) (key : String) (items : List Value) : Prop :=
  source.member? key = some (.list items) ∨
    items = [] ∧ (source.member? key = none ∨ source.member? key = some .null)

theorem read_of_holds (h : Holds source key items) {call : Call}
    (hkey : call.context.get? "collection" = some (.string key)) :
    read source call = .ok (.list items) := by
  have hkeyOf : keyOf call "collection" = key := by
    rw [keyOf, hkey]
    rfl
  rw [read, hkeyOf]
  rcases h with hlist | ⟨rfl, hnone | hnull⟩
  · rw [hlist]
  · rw [hnone]
  · rw [hnull]

theorem filterByArgs_list (items : List Value) (call : Call) :
    filterByArgs (.list items) call = .ok (.next (.list (items.filter (Matches call.args ·)))) := by
  rw [← filter_criteria]
  rfl

theorem paginate_list {offset limit : ℕ} (items : List Value) {call : Call}
    (hargs : call.args = pageArgs args offset limit) :
    paginate (.list items) call = .ok (.next (.list (page offset (some limit) items))) := by
  obtain ⟨hoffset, hlimit⟩ := countArg_pageArgs args offset limit
  rw [paginate, hargs, hoffset]
  dsimp only
  rw [hlimit]
  rfl

end Builtin

/-- The chain gives the matching items of a collection page by page: `n` items in each, but for the last
page that is not empty, nothing missing and nothing twice. -/
def Chain.Pages (c : Chain) (key : String) : Prop :=
  ∀ source items args n field request, Builtin.Holds source key items → 1 ≤ n →
    let kept := items.filter (Builtin.Matches args ·)
    ∃ pages : ℕ → List Value,
      (∀ k, c.resolve source ⟨field, Builtin.pageArgs args (k * n) n, request⟩ =
        .ok (.list (pages k))) ∧
      (∀ m, (List.range m).flatMap pages = kept.take (m * n)) ∧
      (∀ m, kept.length ≤ m → (List.range m).flatMap pages = kept) ∧
      ∀ j k, j < k → pages k ≠ [] → (pages j).length = n

/-- The chain gives the first of the matching items of a collection, or null. Arguments for a page make no
difference. -/
def Chain.PicksFirst (c : Chain) (key : String) : Prop :=
  ∀ source items args field request, Builtin.Holds source key items →
    let kept := items.filter (Builtin.Matches args ·)
    c.resolve source ⟨field, args, request⟩ = .ok (kept.head?.getD .null) ∧
      ∀ offset limit, c.resolve source ⟨field, Builtin.pageArgs args offset limit, request⟩ =
        .ok (kept.head?.getD .null)

namespace Operation

open Builtin

/-- What a chain does that serves an operation on the collection of a key. -/
def Serves : Operation → Chain → String → Prop
  | .read => Chain.Pages
  | .readOne => Chain.PicksFirst

/-- The function behind the last step of an operation. -/
def lastRun : Operation → ChainStep
  | .read => paginate
  | .readOne => first

/-- The context of the functions of an operation, which names the collection. -/
def context (typeName : String) : Dict Value :=
  Dict.empty.insert "collection" (.string (collectionName typeName))

/-- The chain of a generated operation. -/
def chain (typeName : String) (op : Operation) : Chain :=
  ⟨[], ⟨reference "read", Builtin.read, context typeName⟩,
    [⟨reference "filterByArgs", filterByArgs, context typeName⟩,
      ⟨reference op.lastStep, op.lastRun, context typeName⟩]⟩

variable {registry : Registry} {typeName : String} {op : Operation} {p : Plan}

/-- The plan of an operation is bound to the built-in functions. -/
theorem bind_plan (hbuiltin : registry.providers.get? providerName = some Builtin.provider)
    (hplan : plan typeName op.lastStep = .ok p) : p.bind registry = .ok (chain typeName op) := by
  have hread : registry.primary (reference "read") = .ok Builtin.read := by
    simp only [Registry.primary, Registry.callable, reference, hbuiltin]
    rfl
  have hfilter : registry.chainStep (reference "filterByArgs") = .ok filterByArgs := by
    simp only [Registry.chainStep, Registry.callable, reference, hbuiltin]
    rfl
  have hlast : registry.chainStep (reference op.lastStep) = .ok op.lastRun := by
    simp only [Registry.chainStep, Registry.callable, reference, hbuiltin]
    cases op <;> rfl
  obtain rfl := Except.ok.inj hplan
  simp only [Plan.bind, Plan.bindSteps, Plan.bindStep, Plan.after, Plan.new, List.nil_append,
    List.cons_append, hread, hfilter, hlast]
  rfl

/-- A chain of an operation reads, filters, and hands what is left to its last step. -/
theorem resolve_chain {source v : Value} {items : List Value}
    (h : Holds source (collectionName typeName) items) (r : Request)
    (hlast : op.lastRun (.list (items.filter (Matches r.args ·))) (r.call (context typeName)) =
      .ok (.next v)) : (chain typeName op).resolve source r = .ok v := by
  have hcontext : (context typeName).get? "collection" = some (.string (collectionName typeName)) := by
    simp [context]
  have hread : Builtin.read source (r.call (context typeName)) = .ok (.list items) :=
    read_of_holds h hcontext
  have hfilter := filterByArgs_list items (r.call (context typeName))
  have hargs : (r.call (context typeName)).args = r.args := rfl
  rw [hargs] at hfilter
  simp only [Chain.resolve, chain, runSteps, Bound.runPrimary, Bound.runStep, blame, hread, hfilter,
    hlast]

theorem serves_chain (typeName : String) (op : Operation) :
    op.Serves (chain typeName op) (collectionName typeName) := by
  cases op with
  | read =>
    intro source items args n field request hholds hn kept
    have hpages := flatMap_page n kept
    refine ⟨fun k => page (k * n) (some n) kept, fun k => ?_, hpages, fun m hm => ?_, fun j k hjk =>
      length_page_of_ne_nil hjk⟩
    · refine resolve_chain hholds _ ?_
      simp only [matches_pageArgs]
      exact paginate_list kept rfl
    · rw [hpages, List.take_of_length_le (hm.trans (Nat.le_mul_of_pos_right m hn))]
  | readOne =>
    intro source items args field request hholds kept
    refine ⟨resolve_chain hholds _ rfl, fun offset limit => ?_⟩
    refine resolve_chain hholds _ ?_
    simp only [matches_pageArgs]
    rfl

example :
    let page (title lang : String) : Value :=
      .ofPairs [("title", .string title), ("lang", .string lang)]
    (chain "Page" .read).resolve
        (.ofPairs [("pages", .list [page "a" "en", page "b" "de", page "c" "en"])])
        ⟨"readPages", pageArgs (.ofList [("lang", .string "en")]) 1 1, .null⟩ =
      .ok (.list [page "c" "en"]) := rfl

end Operation

end ClassSchema
