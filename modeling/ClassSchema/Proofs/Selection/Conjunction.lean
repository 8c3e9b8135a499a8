import ClassSchema.Proofs.Class.Lineage
import ClassSchema.Proofs.Traverse
import ClassSchema.Selection.Pipeline

/-!
# Pipelines of built-in loaders

A built-in loader decides on each class alone. So a pipeline of them is one filter, by the conjunction of
what its loaders ask for, and neither their order nor how often one of them runs makes a difference.
-/

namespace ClassSchema

open Relation (TransGen ReflTransGen)
open Descriptor (Extends)

theorem Patterns.keeps_iff (p : Patterns) (isMatch : String → Bool) : p.keeps isMatch = true ↔
    (p.includes = [] ∨ ∃ pattern ∈ p.includes, isMatch pattern = true) ∧
      ∀ pattern ∈ p.excludes, ¬ isMatch pattern = true := by
  simp [keeps]

namespace Collection

theorem filter_filter (c : Collection) (p q : String → String → Bool) :
    (c.filter p).filter q = c.filter fun name path => p name path && q name path := by
  obtain ⟨entries⟩ := c
  simp [Dict.filter, Bool.and_comm]

theorem isWithin_filter (c : Collection) (keep : String → String → Bool) :
    Collection.isWithin (c.filter keep) c = true := by
  rw [isWithin, List.all_eq_true]
  intro name hname
  have hmem : name ∈ c.keys := by
    obtain ⟨e, he, rfl⟩ := List.mem_map.mp hname
    exact List.mem_map_of_mem (List.mem_filter.mp he).1
  rw [Dict.contains, Option.isSome_iff_ne_none]
  exact (c.mem_keys_iff name).mp hmem

end Collection

private theorem lookup_of_traverse {α : Type} {f : String → Except Fault (String × α)}
    (hf : ∀ x y, f x = .ok y → y.1 = x) {xs : List String} {ys : List (String × α)}
    (h : traverse f xs = .ok ys) {x : String} (hx : x ∈ xs) :
    ∃ a, Dict.lookup x ys = some a ∧ f x = .ok (x, a) := by
  induction xs generalizing ys with
  | nil => cases hx
  | cons first xs ih =>
    rw [traverse] at h
    cases hfirst : f first with
    | error e => simp [hfirst] at h
    | ok y =>
      cases hrest : traverse f xs with
      | error e => simp [hfirst, hrest] at h
      | ok ys' =>
        simp only [hfirst, hrest, Except.ok.injEq] at h
        subst h
        obtain ⟨key, a⟩ := y
        obtain rfl : key = first := hf first _ hfirst
        by_cases hkey : key = x
        · subst hkey
          exact ⟨a, by simp [Dict.lookup], hfirst⟩
        · obtain ⟨b, hb, hfx⟩ := ih hrest ((List.mem_cons.mp hx).resolve_left (Ne.symm hkey))
          exact ⟨b, by simpa [Dict.lookup, hkey] using hb, hfx⟩

private theorem compile_ok_iff {pattern : String} {found : String × Glob.Pattern} :
    Loader.Namespace.compile pattern = .ok found ↔
      ∃ p, Glob.parse pattern = .ok p ∧ found = (pattern, p) := by
  rw [Loader.Namespace.compile]
  cases Glob.parse pattern with
  | error message => simp
  | ok p => simp [eq_comm]

private theorem expand_ok_iff {o : LoaderOptions} {pattern : String} {found : String × List String} :
    Loader.FilePath.expand o pattern = .ok found ↔
      ∃ files, Glob.files o.files (Path.join o.base pattern) = .ok files ∧ found = (pattern, files) := by
  rw [Loader.FilePath.expand]
  cases Glob.files o.files (Path.join o.base pattern) with
  | error message => simp
  | ok files => simp [eq_comm]

/-- A built-in loader, by what it is made from. -/
inductive BuiltinLoader where
  | byAncestor (patterns : Patterns)
  | byMarker (patterns : Patterns)
  | byName (patterns : Patterns)
  | byFile (options : LoaderOptions)

namespace BuiltinLoader

def make : BuiltinLoader → Except Fault Loader
  | .byAncestor patterns => .ok (Loader.byAncestor patterns)
  | .byMarker patterns => .ok (Loader.byMarker patterns)
  | .byName patterns => Loader.byName patterns
  | .byFile options => Loader.byFile options

def patterns : BuiltinLoader → Patterns
  | .byAncestor patterns | .byMarker patterns | .byName patterns => patterns
  | .byFile options => options.patterns

/-- A pattern matches a class that stands in a collection with the file that declares it. -/
def Matches (ds : List Descriptor) (name path pattern : String) : BuiltinLoader → Prop
  | .byAncestor _ => name = pattern ∨ TransGen (Extends ds) name pattern
  | .byMarker _ =>
    ∃ d ∈ ds, (d.name = name ∨ TransGen (Extends ds) name d.name) ∧ pattern ∈ d.markers
  | .byName _ => ∃ p, Glob.parse pattern = .ok p ∧ Glob.accepts p name = true
  | .byFile o => ∃ files, Glob.files o.files (Path.join o.base pattern) = .ok files ∧
      ∃ file ∈ files, Path.same path file = true

/-- Some include pattern matches, if there are any, and no exclude pattern does. -/
def Selects (ds : List Descriptor) (b : BuiltinLoader) (name path : String) : Prop :=
  (b.patterns.includes = [] ∨ ∃ pattern ∈ b.patterns.includes, b.Matches ds name path pattern) ∧
    ∀ pattern ∈ b.patterns.excludes, ¬ b.Matches ds name path pattern

variable {ds : List Descriptor} {ix : Index} {b : BuiltinLoader} {l : Loader}

open scoped Classical in
private theorem keep_eq_filter {isMatch : String → String → String → Bool}
    (hmatch : ∀ name path, ∀ pattern ∈ b.patterns.all,
      isMatch name path pattern = true ↔ b.Matches ds name path pattern) (c : Collection) :
    Loader.keep b.patterns isMatch c = c.filter fun name path => decide (b.Selects ds name path) := by
  have hkeeps (name path : String) :
      b.patterns.keeps (isMatch name path) = decide (b.Selects ds name path) := by
    rw [Bool.eq_iff_iff, Patterns.keeps_iff, decide_eq_true_iff, Selects]
    have hincludes : ∀ pattern ∈ b.patterns.includes,
        isMatch name path pattern = true ↔ b.Matches ds name path pattern :=
      fun pattern h => hmatch name path pattern (List.mem_append_left _ h)
    have hexcludes : ∀ pattern ∈ b.patterns.excludes,
        isMatch name path pattern = true ↔ b.Matches ds name path pattern :=
      fun pattern h => hmatch name path pattern (List.mem_append_right _ h)
    grind
  simp only [Loader.keep, hkeeps]

open scoped Classical in
/-- A loader that gives one collection gives all, each filtered by what the loader selects. -/
theorem collect_eq_filter (hix : ix.Describes ds) (hmake : b.make = .ok l) {c next : Collection}
    (hcollect : l.collect c ix = .ok next) (c' : Collection) :
    l.collect c' ix = .ok (c'.filter fun name path => decide (b.Selects ds name path)) := by
  cases b with
  | byAncestor patterns =>
    obtain rfl := Except.ok.inj hmake
    refine congrArg Except.ok (keep_eq_filter (b := .byAncestor patterns) ?_ c')
    intro name path pattern _
    simp [Loader.Inheritance.isMatch, hix.isSubclass_iff, Matches]
  | byMarker patterns =>
    obtain rfl := Except.ok.inj hmake
    refine congrArg Except.ok (keep_eq_filter (b := .byMarker patterns) ?_ c')
    intro name path pattern _
    simp [hix.hasMarker_iff, Relation.reflTransGen_iff_eq_or_transGen, Matches]
  | byName patterns =>
    rw [make, Loader.byName] at hmake
    split at hmake
    · cases hmake
    · next compiled hcompiled =>
      obtain rfl := Except.ok.inj hmake
      refine congrArg Except.ok (keep_eq_filter (b := .byName patterns) ?_ c')
      intro name path pattern hpattern
      have hkey : ∀ x y, Loader.Namespace.compile x = .ok y → y.1 = x := by
        intro x y hy
        obtain ⟨p, -, rfl⟩ := compile_ok_iff.mp hy
        rfl
      obtain ⟨a, hlookup, hcompile⟩ := lookup_of_traverse hkey hcompiled hpattern
      obtain ⟨p, hparse, hp⟩ := compile_ok_iff.mp hcompile
      obtain rfl : a = p := congrArg Prod.snd hp
      simp [Loader.Namespace.isMatch, hlookup, Matches, hparse]
  | byFile o =>
    rw [make, Loader.byFile] at hmake
    split at hmake
    · cases hmake
    · obtain rfl := Except.ok.inj hmake
      cases hexpand : Loader.FilePath.expandAll o with
      | error e => simp [hexpand] at hcollect
      | ok found =>
        refine congrArg Except.ok (keep_eq_filter (b := .byFile o) ?_ c')
        intro name path pattern hpattern
        have hkey : ∀ x y, Loader.FilePath.expand o x = .ok y → y.1 = x := by
          intro x y hy
          obtain ⟨files, -, rfl⟩ := expand_ok_iff.mp hy
          rfl
        obtain ⟨a, hlookup, hpair⟩ := lookup_of_traverse hkey hexpand hpattern
        obtain ⟨files, hfiles, hp⟩ := expand_ok_iff.mp hpair
        obtain rfl : a = files := congrArg Prod.snd hp
        simp [Loader.FilePath.isMatch, hlookup, Matches, hfiles]

theorem exists_make_of_table {base : String} {files : FileTree} {entry : LoaderEntry}
    (h : LoaderTable.builtin.make base files entry = .ok l) :
    ∃ b : BuiltinLoader, b.patterns = entry.patterns ∧ b.make = .ok l := by
  rw [LoaderTable.make] at h
  split at h
  · next maker hmaker =>
    simp only [LoaderTable.builtin, Dict.get?_ofList, List.reverse_cons, List.reverse_nil,
      List.nil_append, List.cons_append, Dict.lookup] at hmaker
    split at hmaker
    · obtain rfl := Option.some.inj hmaker
      exact ⟨.byFile ⟨entry.patterns, base, files⟩, rfl, h⟩
    · split at hmaker
      · obtain rfl := Option.some.inj hmaker
        exact ⟨.byName entry.patterns, rfl, h⟩
      · split at hmaker
        · obtain rfl := Option.some.inj hmaker
          exact ⟨.byMarker entry.patterns, rfl, h⟩
        · split at hmaker
          · obtain rfl := Option.some.inj hmaker
            exact ⟨.byAncestor entry.patterns, rfl, h⟩
          · cases hmaker
  · cases h

/-- The loader can be made, and collects. -/
def Works (ix : Index) (b : BuiltinLoader) : Prop :=
  ∃ l, b.make = .ok l ∧ ∃ c next, l.collect c ix = .ok next

open scoped Classical in
theorem stage_eq_filter (hix : ix.Describes ds) (hmake : b.make = .ok l) {c next : Collection}
    (hcollect : l.collect c ix = .ok next) (c' : Collection) :
    Pipeline.stage ix l c' = .ok (c'.filter fun name path => decide (b.Selects ds name path)) := by
  rw [Pipeline.stage, collect_eq_filter hix hmake hcollect]
  simp [Collection.isWithin_filter]

open scoped Classical in
/-- What a pipeline of built-in loaders gives depends on which loaders it has, and on nothing else. -/
theorem run_ok_iff (hix : ix.Describes ds) (bs : List BuiltinLoader) (initial result : Collection) :
    (∃ loaders, traverse make bs = .ok loaders ∧ Pipeline.run ix loaders initial = .ok result) ↔
      (∀ b ∈ bs, b.Works ix) ∧
        result = initial.filter fun name path => decide (∀ b ∈ bs, b.Selects ds name path) := by
  induction bs generalizing initial with
  | nil => simp [traverse, Pipeline.run, Dict.filter, eq_comm]
  | cons b bs ih =>
    have hsplit : (fun name path => decide (∀ a ∈ b :: bs, a.Selects ds name path)) =
        fun name path => decide (b.Selects ds name path) &&
          decide (∀ a ∈ bs, a.Selects ds name path) := by
      funext name path
      simp
    rw [hsplit, ← Collection.filter_filter, List.forall_mem_cons, and_assoc, ← ih]
    constructor
    · rintro ⟨loaders, hmade, hrun⟩
      rw [traverse] at hmade
      cases hb : b.make with
      | error e => simp [hb] at hmade
      | ok l =>
        cases hbs : traverse make bs with
        | error e => simp [hb, hbs] at hmade
        | ok ls =>
          simp only [hb, hbs, Except.ok.injEq] at hmade
          subst hmade
          rw [Pipeline.run] at hrun
          cases hcollect : l.collect initial ix with
          | error e => simp [Pipeline.stage, hcollect] at hrun
          | ok next =>
            rw [stage_eq_filter hix hb hcollect] at hrun
            exact ⟨⟨l, hb, initial, next, hcollect⟩, ls, rfl, hrun⟩
    · rintro ⟨⟨l, hb, c, next, hcollect⟩, ls, hbs, hrun⟩
      refine ⟨l :: ls, by rw [traverse, hb, hbs], ?_⟩
      rw [Pipeline.run, stage_eq_filter hix hb hcollect]
      exact hrun

/-- A pipeline of built-in loaders keeps just what all of them select. Any pipeline of the same loaders,
in another order or with repetitions, gives the same collection. -/
theorem process_conjunction (ds : List Descriptor) (ix : Index) (hix : Index.ofDescriptors ds = .ok ix)
    (initial result : Collection) (bs : List BuiltinLoader) (loaders : List Loader)
    (hmade : traverse make bs = .ok loaders)
    (hrun : Pipeline.process ⟨initial, loaders⟩ ix = .ok result) :
    (∀ name path, (name, path) ∈ result.entries ↔
      (name, path) ∈ initial.entries ∧ ∀ b ∈ bs, b.Selects ds name path) ∧
    ∀ bs' : List BuiltinLoader, (∀ b, b ∈ bs' ↔ b ∈ bs) → ∃ loaders',
      traverse make bs' = .ok loaders' ∧ Pipeline.process ⟨initial, loaders'⟩ ix = .ok result := by
  classical
  have hdescribes := Index.describes_of_ok hix
  obtain ⟨hworks, hresult⟩ := (run_ok_iff hdescribes bs initial result).mp ⟨loaders, hmade, hrun⟩
  constructor
  · intro name path
    rw [hresult, Dict.filter, List.mem_filter, decide_eq_true_iff]
  · intro bs' hsame
    apply (run_ok_iff hdescribes bs' initial result).mpr
    simp only [hsame]
    exact ⟨hworks, hresult⟩

section Example

/-- Records, pages, drafts of pages, and members, each in a file of its own. -/
def shelf : List Descriptor :=
  [⟨"Record", .ordinary, none, [], true, none, .empty, "/models/record.toml"⟩,
    ⟨"Page", .ordinary, some "Record", [], false, none, .empty, "/models/page.toml"⟩,
    ⟨"Draft", .ordinary, some "Page", ["Hidden"], false, none, .empty, "/models/draft.toml"⟩,
    ⟨"Proof", .ordinary, some "Draft", [], false, none, .empty, "/models/proof.toml"⟩,
    ⟨"Member", .ordinary, none, [], false, none, .empty, "/models/member.toml"⟩]

def shelfFiles : FileTree :=
  .folder (.ofList [("models", .folder (.ofList [("page.toml", .file ""), ("draft.toml", .file "")]))])

/-- One loader of each sort. -/
def shelfLoaders : List BuiltinLoader :=
  [.byAncestor ⟨["Record"], []⟩, .byMarker ⟨[], ["Hidden"]⟩, .byName ⟨["*e*", "P?"], ["M*"]⟩,
    .byFile ⟨⟨["models/*.toml"], ["models/draft*"]⟩, "/", shelfFiles⟩]

theorem process_conjunction_shelf : ∃ ix loaders result, Index.ofDescriptors shelf = .ok ix ∧
    traverse make shelfLoaders = .ok loaders ∧
    Pipeline.process ⟨ix.collection, loaders⟩ ix = .ok result ∧
    result.entries = [("Page", "/models/page.toml")] ∧
    (∀ name path, (name, path) ∈ result.entries ↔ (name, path) ∈ ix.collection.entries ∧
      ∀ b ∈ shelfLoaders, b.Selects shelf name path) ∧
    ∀ bs : List BuiltinLoader, (∀ b, b ∈ bs ↔ b ∈ shelfLoaders) → ∃ loaders',
      traverse make bs = .ok loaders' ∧
        Pipeline.process ⟨ix.collection, loaders'⟩ ix = .ok result := by
  let run : Except Fault Collection := do
    let ix ← Index.ofDescriptors shelf
    let loaders ← traverse make shelfLoaders
    Pipeline.process ⟨ix.collection, loaders⟩ ix
  have hentries : run.toOption.map (·.entries) = some [("Page", "/models/page.toml")] := by
    decide +kernel
  obtain ⟨result, hsome, hentries⟩ := Option.map_eq_some_iff.mp hentries
  obtain ⟨ix, hix, hrun⟩ := except_bind_ok_iff.mp (eq_ok_of_toOption hsome)
  obtain ⟨loaders, hmade, hrun⟩ := except_bind_ok_iff.mp hrun
  obtain ⟨hkept, hsame⟩ :=
    process_conjunction shelf ix hix ix.collection result shelfLoaders loaders hmade hrun
  exact ⟨ix, loaders, result, hix, hmade, hrun, hentries, hkept, hsame⟩

end Example

end BuiltinLoader

end ClassSchema
