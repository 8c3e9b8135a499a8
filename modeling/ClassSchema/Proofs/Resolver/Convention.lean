import ClassSchema.Resolver.Discovery
import Mathlib.Data.List.Forall2

/-!
# What the convention finds

Two nested searches, the names outside and the providers inside, come to the first name that any provider
registered as a primary and to the first provider that did.
-/

namespace ClassSchema

namespace Provider

def Registers (p : Provider) (method : String) : Prop := ∃ run, p.methods.get? method = some (.primary run)

@[simp] theorem hasPrimary_iff (p : Provider) (method : String) :
    p.hasPrimary method = true ↔ p.Registers method := by
  rw [hasPrimary, Registers]
  split <;> simp_all

@[simp] theorem hasPrimary_eq_false_iff (p : Provider) (method : String) :
    p.hasPrimary method = false ↔ ¬ p.Registers method := by
  rw [← hasPrimary_iff, Bool.not_eq_true]

/-- Two providers of one name that register the same primaries, whatever they run and whatever chain steps
stand beside them. -/
structure SamePrimaries (p q : Provider) : Prop where
  name : p.name = q.name
  registers (method : String) : p.Registers method ↔ q.Registers method

theorem SamePrimaries.symm {p q : Provider} (h : p.SamePrimaries q) : q.SamePrimaries p :=
  ⟨h.name.symm, fun method => (h.registers method).symm⟩

theorem SamePrimaries.hasPrimary_eq {p q : Provider} (h : p.SamePrimaries q) (method : String) :
    p.hasPrimary method = q.hasPrimary method := by
  rw [Bool.eq_iff_iff, hasPrimary_iff, hasPrimary_iff]
  exact h.registers method

theorem samePrimaries_withStep {p : Provider} {method : String} (hfree : ¬ p.Registers method)
    (step : ChainStep) : (p.withStep method step).SamePrimaries p := by
  refine ⟨rfl, ?_⟩
  intro other
  by_cases hsame : other = method
  · have hstep : ¬ (p.withStep method step).Registers method := by
      simp [Registers, withStep]
    rw [hsame, iff_false_intro hstep, iff_false_intro hfree]
  · simp [Registers, withStep, hsame]

end Provider

namespace Convention

variable {providers others : List Provider} {site : FieldSite}

/-- The names the convention prescribes, the most specific first: five for a field of a model, four for any
other. -/
def prescribed : FieldSite → List String
  | ⟨type, field, some model⟩ =>
    ["resolve" ++ pascalCase type ++ pascalCase field,
      "resolve" ++ pascalCase type,
      "resolve" ++ pascalCase model ++ pascalCase field,
      "resolve" ++ pascalCase field,
      "resolve"]
  | ⟨type, field, none⟩ =>
    ["resolve" ++ pascalCase type ++ pascalCase field,
      "resolve" ++ pascalCase type,
      "resolve" ++ pascalCase field,
      "resolve"]

theorem spelledNames_eq_prescribed (site : FieldSite) : spelledNames site = prescribed site := by
  obtain ⟨type, field, model⟩ := site
  cases model <;> rfl

/-- The first of the names that any provider registered as a primary, and the first provider that did. -/
structure First (providers : List Provider) (names : List String) (p : Provider) (name : String) : Prop where
  named : ∃ before after, names = before ++ name :: after ∧
    ∀ earlier ∈ before, ∀ q ∈ providers, ¬ q.Registers earlier
  provided : ∃ before after, providers = before ++ p :: after ∧ p.Registers name ∧
    ∀ q ∈ before, ¬ q.Registers name

/-- No name of the convention is registered for a site. -/
def Unnamed (providers : List Provider) (site : FieldSite) : Prop :=
  ∀ name ∈ prescribed site, ∀ p ∈ providers, ¬ p.Registers name

/-- The answer that a site is due. -/
inductive Due (providers : List Provider) (site : FieldSite) (modelDefault globalDefault : Option Reference) :
    Except Fault Reference → Prop
  | first {p : Provider} {name : String} : First providers (prescribed site) p name →
      Due providers site modelDefault globalDefault (.ok (p.reference name))
  | model {r : Reference} : Unnamed providers site → modelDefault = some r →
      Due providers site modelDefault globalDefault (.ok r)
  | global {r : Reference} : Unnamed providers site → modelDefault = none → globalDefault = some r →
      Due providers site modelDefault globalDefault (.ok r)
  | unresolved : Unnamed providers site → modelDefault = none → globalDefault = none →
      Due providers site modelDefault globalDefault (.error (.unresolvedField site.type site.field))

/-- The reference to the first provider that registered a name. -/
def supplied (providers : List Provider) (name : String) : Option Reference :=
  (providers.find? (·.hasPrimary name)).map (·.reference name)

theorem supplied_eq_none_iff (providers : List Provider) (name : String) :
    supplied providers name = none ↔ ∀ p ∈ providers, ¬ p.Registers name := by
  simp [supplied]

theorem search_eq_findSome? (providers : List Provider) (names : List String) :
    search providers names = names.findSome? (supplied providers) := by
  induction names with
  | nil => rfl
  | cons name names ih =>
    rw [search, List.findSome?_cons, supplied, ih]
    cases providers.find? (·.hasPrimary name) <;> rfl

theorem search_eq_none_iff (providers : List Provider) (names : List String) :
    search providers names = none ↔ ∀ name ∈ names, ∀ p ∈ providers, ¬ p.Registers name := by
  simp [search_eq_findSome?, supplied_eq_none_iff]

theorem search_eq_some_iff (providers : List Provider) (names : List String) (r : Reference) :
    search providers names = some r ↔ ∃ p name, First providers names p name ∧ r = p.reference name := by
  simp only [search_eq_findSome?, List.findSome?_eq_some_iff, supplied_eq_none_iff]
  constructor
  · intro hfound
    obtain ⟨before, name, after, hnames, hsupplied, hbefore⟩ := hfound
    obtain ⟨p, hp, hr⟩ := Option.map_eq_some_iff.mp hsupplied
    obtain ⟨hregisters, left, right, hproviders, hleft⟩ := List.find?_eq_some_iff_append.mp hp
    rw [Provider.hasPrimary_iff] at hregisters
    refine ⟨p, name, ⟨⟨before, after, hnames, hbefore⟩, left, right, hproviders, hregisters, ?_⟩, hr.symm⟩
    simpa using hleft
  · intro hfirst
    obtain ⟨p, name, ⟨⟨before, after, hnames, hbefore⟩, left, right, hproviders, hregisters, hleft⟩, rfl⟩ :=
      hfirst
    refine ⟨before, name, after, hnames, ?_, hbefore⟩
    have hfind : providers.find? (·.hasPrimary name) = some p := by
      rw [List.find?_eq_some_iff_append]
      exact ⟨by simpa using hregisters, left, right, hproviders, by simpa using hleft⟩
    rw [supplied, hfind]
    rfl

theorem search_filter_ne (names : List String) {name : String} (hnone : supplied providers name = none) :
    search providers (names.filter (· ≠ name)) = search providers names := by
  rw [search_eq_findSome?, search_eq_findSome?]
  induction names with
  | nil => rfl
  | cons other names ih =>
    by_cases hsame : other = name
    · simpa [hsame, hnone] using ih
    · simp only [List.filter_cons, hsame, ne_eq, not_false_eq_true, decide_true, if_true,
        List.findSome?_cons, ih]

theorem search_firstOccurrences (providers : List Provider) (names : List String) :
    search providers (firstOccurrences names) = search providers names := by
  induction names with
  | nil => rfl
  | cons name names ih =>
    rw [firstOccurrences, search_eq_findSome?, search_eq_findSome?, List.findSome?_cons, List.findSome?_cons]
    cases hsupplied : supplied providers name with
    | some r => rfl
    | none => rw [← search_eq_findSome?, ← search_eq_findSome?, search_filter_ne _ hsupplied, ih]

/-- The candidates are the prescribed names, and those spelled twice do not count. -/
theorem search_candidates (providers : List Provider) (site : FieldSite) :
    search providers (candidates site) = search providers (prescribed site) := by
  rw [candidates, search_firstOccurrences, spelledNames_eq_prescribed]

theorem supplied_congr (h : List.Forall₂ Provider.SamePrimaries providers others) (name : String) :
    supplied providers name = supplied others name := by
  induction h with
  | nil => rfl
  | @cons p q providers others hpq hrest ih =>
    simp only [supplied, List.find?_cons] at ih ⊢
    rw [hpq.hasPrimary_eq name]
    cases q.hasPrimary name with
    | false => exact ih
    | true => simp [Provider.reference, hpq.name]

theorem strategy_congr (h : List.Forall₂ Provider.SamePrimaries providers others) :
    strategy providers site = strategy others site := by
  rw [strategy, strategy, search_eq_findSome?, search_eq_findSome?, funext (supplied_congr h)]

theorem strategy_eq_some_iff (providers : List Provider) (site : FieldSite) (r : Reference) :
    strategy providers site = some r ↔
      ∃ p name, First providers (prescribed site) p name ∧ r = p.reference name := by
  rw [strategy, search_candidates, search_eq_some_iff]

theorem strategy_eq_none_iff (providers : List Provider) (site : FieldSite) :
    strategy providers site = none ↔ Unnamed providers site := by
  rw [strategy, search_candidates, search_eq_none_iff, Unnamed]

theorem discover_eq_iff_due (providers : List Provider) (site : FieldSite)
    (modelDefault globalDefault : Option Reference) (answer : Except Fault Reference) :
    discover strategy providers site modelDefault globalDefault = answer ↔
      Due providers site modelDefault globalDefault answer := by
  constructor
  · intro hanswer
    rw [← hanswer]
    unfold discover
    cases hfound : strategy providers site with
    | some r =>
      obtain ⟨p, name, hfirst, rfl⟩ := (strategy_eq_some_iff providers site r).mp hfound
      exact .first hfirst
    | none =>
      have hnone := (strategy_eq_none_iff providers site).mp hfound
      cases modelDefault with
      | some r => exact .model hnone rfl
      | none =>
        cases globalDefault with
        | some r => exact .global hnone rfl rfl
        | none => exact .unresolved hnone rfl rfl
  · intro hdue
    unfold discover
    cases hdue with
    | @first p name hfirst => rw [(strategy_eq_some_iff providers site _).mpr ⟨p, name, hfirst, rfl⟩]
    | model hnone hmodel => rw [(strategy_eq_none_iff providers site).mpr hnone, hmodel]
    | global hnone hmodel hglobal => rw [(strategy_eq_none_iff providers site).mpr hnone, hmodel, hglobal]
    | unresolved hnone hmodel hglobal => rw [(strategy_eq_none_iff providers site).mpr hnone, hmodel, hglobal]

/-- A site gets the most specific of the prescribed names that is registered, from the first provider that
registered it, and the defaults only where there is none. Neither names spelled twice nor chain steps
count. -/
theorem discover_most_specific (providers : List Provider) (site : FieldSite) :
    (∀ r, strategy providers site = some r ↔
      ∃ p name, First providers (prescribed site) p name ∧ r = p.reference name) ∧
    (∀ modelDefault globalDefault answer,
      discover strategy providers site modelDefault globalDefault = answer ↔
        Due providers site modelDefault globalDefault answer) ∧
    search providers (candidates site) = search providers (prescribed site) ∧
    ∀ others, List.Forall₂ Provider.SamePrimaries providers others → ∀ modelDefault globalDefault,
      discover strategy others site modelDefault globalDefault =
        discover strategy providers site modelDefault globalDefault := by
  refine ⟨strategy_eq_some_iff providers site, discover_eq_iff_due providers site,
    search_candidates providers site, ?_⟩
  intro others hsame modelDefault globalDefault
  unfold discover
  rw [strategy_congr hsame]

section Example

def pages : Provider := (Provider.new "Pages").withPrimary "resolveTitle" Builtin.resolve

def everything : Provider := (Provider.new "Everything").withPrimary "resolve" Builtin.resolve

/-- The step has a more specific name than the primary that is found, on an earlier provider. -/
theorem discover_most_specific_title :
    List.Forall₂ Provider.SamePrimaries [everything, pages]
      [everything.withStep "resolvePageTitle" Builtin.stopAtNull, pages] ∧
    discover strategy [everything.withStep "resolvePageTitle" Builtin.stopAtNull, pages]
      ⟨"Page", "title", some "Entity"⟩ none none = .ok ⟨"Pages", "resolveTitle"⟩ := by
  have hfree : ¬ everything.Registers "resolvePageTitle" := by
    rw [← Provider.hasPrimary_iff]
    decide +kernel
  have hsame : List.Forall₂ Provider.SamePrimaries [everything, pages]
      [everything.withStep "resolvePageTitle" Builtin.stopAtNull, pages] :=
    .cons (Provider.samePrimaries_withStep hfree Builtin.stopAtNull).symm
      (.cons ⟨rfl, fun _ => Iff.rfl⟩ .nil)
  have hfound : strategy [everything, pages] ⟨"Page", "title", some "Entity"⟩ =
      some ⟨"Pages", "resolveTitle"⟩ := by
    decide +kernel
  have h := discover_most_specific [everything, pages] ⟨"Page", "title", some "Entity"⟩
  obtain ⟨p, name, hfirst, hr⟩ := (h.1 _).mp hfound
  refine ⟨hsame, ?_⟩
  rw [h.2.2.2 _ hsame, hr]
  exact (h.2.1 none none _).mpr (.first hfirst)

end Example

end Convention

end ClassSchema
