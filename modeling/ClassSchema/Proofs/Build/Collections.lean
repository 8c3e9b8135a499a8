import ClassSchema.Proofs.Build.Operations
import ClassSchema.Proofs.Name
import Mathlib.Data.List.Pairwise

/-!
# Collections of generated operations

The resolver of a generated operation names the collection that it reads, after the type of its model. What is
checked is the name of the query field alone, so two types may read one collection: just when their plurals
are spelled alike in Pascal case.
-/

namespace ClassSchema

variable {b : Bindings} {s s' : Schema} {settings : Settings} {exposed : Dict String} {m : Model}
  {models : List Model} {d d' : Decisions} {op : Operation} {typeName : String}

namespace Operation

/-- The query type has the field of the operation, and its resolver reads the collection. -/
def Reads (s : Schema) (typeName : String) (op : Operation) (collection : String) : Prop :=
  ∃ f p, s.HasField queryType (op.queryField typeName).name f ∧ f.resolver = some p ∧
    p.reference = Builtin.reference "read" ∧ p.context.get? "collection" = some (.string collection)

theorem Stands.reads (h : op.Stands b s typeName) : op.Reads s typeName (collectionName typeName) := by
  obtain ⟨f, hf, hfield⟩ := h
  obtain ⟨p, hp, rfl⟩ := field_eq_ok hf
  refine ⟨_, p, hfield, rfl, ?_⟩
  obtain rfl := Except.ok.inj hp
  refine ⟨rfl, ?_⟩
  simp [Plan.after, Plan.new]

theorem new_addTo (h : op.addTo b m s = .ok s') (f : Field) :
    ¬ s.HasField queryType (op.queryField m.typeName).name f := by
  obtain ⟨g, query, hg, hroot, hnew, -⟩ := addTo_ok h
  obtain ⟨p, -, rfl⟩ := field_eq_ok hg
  intro hf
  have hpresent := (Schema.get?_root_iff hroot).mpr hf
  exact Option.some_ne_none f (hpresent.symm.trans hnew)

theorem new_foldlM {ops : List Operation} (h : ops.foldlM (fun s op => op.addTo b m s) s = .ok s') :
    ∀ op ∈ ops, ∀ f, ¬ s.HasField queryType (op.queryField m.typeName).name f := by
  induction ops generalizing s with
  | nil => exact fun op hop => by cases hop
  | cons first ops ih =>
    rw [List.foldlM_cons] at h
    obtain ⟨s₁, hfirst, hrest⟩ := except_bind_ok_iff.mp h
    refine List.forall_mem_cons.mpr ⟨new_addTo hfirst, fun op hop f hf => ?_⟩
    exact ih hrest op hop f ((stands_addTo hfirst).1 _ _ _ hf)

theorem new_addAll {ops : List Operation} (h : addAll b m ops s = .ok s') :
    ∀ op ∈ ops, ∀ f, ¬ s.HasField queryType (op.queryField m.typeName).name f := by
  refine fun op hop => new_foldlM h op ?_
  cases op <;> simp [hop]

end Operation

namespace Model

/-- The settings ask for the operation on the model. -/
def Offers (settings : Settings) (m : Model) (op : Operation) : Prop :=
  ∃ own, Builder.modelSettings settings m.className = .ok own ∧ op ∈ own.operations

/-- A query field of this name is generated for the model. -/
def Generates (settings : Settings) (m : Model) (name : String) : Prop :=
  ∃ op, m.Offers settings op ∧ (op.queryField m.typeName).name = name

/-- No query field is generated for both models. -/
def Apart (settings : Settings) (m m' : Model) : Prop :=
  ∀ name, m.Generates settings name → ¬ m'.Generates settings name

instance : Std.Symm (Apart settings) := ⟨fun _ _ h name hm' hm => h name hm hm'⟩

end Model

namespace Builder

theorem generates_addModel (h : addModel b settings exposed s m d = .ok s' d') {name : String}
    (hname : m.Generates settings name) :
    (∃ f, s'.HasField queryType name f) ∧ ∀ f, ¬ s.HasField queryType name f := by
  obtain ⟨op, ⟨own, hown, hop⟩, rfl⟩ := hname
  obtain ⟨own', hown', h⟩ := Deciding.ofExcept_bind_ok_iff.mp h
  obtain rfl := Except.ok.inj (hown.symm.trans hown')
  obtain ⟨o, d₁, -, h⟩ := bind_ok_iff.mp h
  obtain ⟨s₁, hadd, h⟩ := Deciding.ofExcept_bind_ok_iff.mp h
  obtain ⟨hops, -⟩ := Deciding.ofExcept_ok_iff.mp h
  constructor
  · obtain ⟨f, p, hf, -⟩ := ((Operation.stands_addAll hops).2 op hop).reads
    exact ⟨f, hf⟩
  · intro f hf
    exact Operation.new_addAll hops op hop f (Schema.keepsFields_add hadd _ _ _ hf)

theorem new_addModels (h : models.foldlM (addModel b settings exposed) s d = .ok s' d') {name : String}
    {f : Field} (hf : s.HasField queryType name f) : ∀ m ∈ models, ¬ m.Generates settings name := by
  induction models generalizing s d with
  | nil => exact fun m hm => by cases hm
  | cons first models ih =>
    rw [List.foldlM_cons] at h
    obtain ⟨s₁, d₁, hfirst, hrest⟩ := bind_ok_iff.mp h
    refine List.forall_mem_cons.mpr ⟨fun hname => (generates_addModel hfirst hname).2 f hf, ?_⟩
    exact ih hrest ((stands_addModel hfirst).1 _ _ _ hf)

theorem apart_addModels (h : models.foldlM (addModel b settings exposed) s d = .ok s' d') :
    models.Pairwise (Model.Apart settings) := by
  induction models generalizing s d with
  | nil => exact .nil
  | cons first models ih =>
    rw [List.foldlM_cons] at h
    obtain ⟨s₁, d₁, hfirst, hrest⟩ := bind_ok_iff.mp h
    refine .cons (fun m hm name hname => ?_) (ih hrest)
    obtain ⟨⟨f, hf⟩, -⟩ := generates_addModel hfirst hname
    exact new_addModels hrest hf m hm

/-- Lists of two models that are in one schema have different names. -/
theorem plural_ne_of_apart {m₁ m₂ : Model} (hapart : m₁.Apart settings m₂)
    (h₁ : m₁.Offers settings .read) (h₂ : m₂.Offers settings .read) :
    plural m₁.typeName ≠ plural m₂.typeName := by
  intro hplural
  refine hapart ("read" ++ plural m₁.typeName) ⟨.read, h₁, rfl⟩ ⟨.read, h₂, ?_⟩
  rw [hplural]
  rfl

namespace Workings

variable {b : Builder} {ctx : Context} {s : Schema}

/-- The query field of the operation is generated for the model, and no declared query takes its place. -/
def Generates (w : b.Workings ctx) (m : Model) (op : Operation) : Prop :=
  m.Offers w.settings op ∧ w.queries.get? (op.queryField m.typeName).name = none

theorem Generates.reads {w : b.Workings ctx} {m : Model} {op : Operation} (h : w.Generates m op)
    (hbuild : (b.build ctx).1 = .ok s) (hm : m ∈ w.models) :
    op.Reads s m.typeName (Operation.collectionName m.typeName) := by
  obtain ⟨⟨own, hown, hop⟩, hundeclared⟩ := h
  obtain ⟨d, hassemble⟩ := w.assemble_ok hbuild
  obtain ⟨own', hown', hstands⟩ := stands_assemble hassemble w.queries_ok m hm
  obtain rfl := Except.ok.inj (hown.symm.trans hown')
  exact (hstands op hop hundeclared).reads

theorem typeName_ne (w : b.Workings ctx) (hbuild : (b.build ctx).1 = .ok s) {m₁ m₂ : Model}
    (hm₁ : m₁ ∈ w.models) (hm₂ : m₂ ∈ w.models) (hne : m₁ ≠ m₂) : m₁.typeName ≠ m₂.typeName := by
  obtain ⟨d, hassemble⟩ := w.assemble_ok hbuild
  have hdistinct := (assemble_ensures ctx.name w.settings w.models _ _ _ hassemble).distinct
  exact fun hsame => hne (List.inj_on_of_nodup_map hdistinct hm₁ hm₂ hsame)

theorem apart (w : b.Workings ctx) (hbuild : (b.build ctx).1 = .ok s) {m₁ m₂ : Model}
    (hm₁ : m₁ ∈ w.models) (hm₂ : m₂ ∈ w.models) (hne : m₁ ≠ m₂) : m₁.Apart w.settings m₂ := by
  obtain ⟨d, hassemble⟩ := w.assemble_ok hbuild
  obtain ⟨_, _, _, s₁, _, _, _, d₁, _, _, -, hmodels, -⟩ := assemble_stages hassemble
  exact (apart_addModels hmodels).forall hm₁ hm₂ hne

/-- Two collections, each named after a type, are apart as far as the spelling of the types tells. -/
structure CollectionsApart (w : b.Workings ctx) (m₁ m₂ : Model) (c₁ c₂ : String) : Prop where
  spelled : c₁ ≠ c₂ ↔ pascalCase (plural m₁.typeName) ≠ pascalCase (plural m₂.typeName)
  /-- Names in Pascal case are told apart, but for a silent `e`. -/
  pascal : isPascal m₁.typeName = true → isPascal m₂.typeName = true →
    (c₁ ≠ c₂ ↔ ¬ SilentE m₁.typeName m₂.typeName ∧ ¬ SilentE m₂.typeName m₁.typeName)
  /-- If both models have lists, even these are told apart. -/
  listed : isPascal m₁.typeName = true → isPascal m₂.typeName = true →
    m₁.Offers w.settings .read → m₂.Offers w.settings .read → c₁ ≠ c₂

end Workings

/-- In a schema that was built, the operations of two models read two collections unless the plurals of the
types agree in Pascal case. Types whose names are in Pascal case themselves share a collection only if the
names differ by a silent `e` and one of the models has no list. -/
theorem build_collectionsApart (b : Builder) (ctx : Context) (s : Schema) (h : (b.build ctx).1 = .ok s) :
    Nonempty (b.Workings ctx) ∧ ∀ w : b.Workings ctx, ∀ m₁ ∈ w.models, ∀ m₂ ∈ w.models, m₁ ≠ m₂ →
      ∀ op₁ op₂, w.Generates m₁ op₁ → w.Generates m₂ op₂ →
        ∃ c₁ c₂, op₁.Reads s m₁.typeName c₁ ∧ op₂.Reads s m₂.typeName c₂ ∧
          w.CollectionsApart m₁ m₂ c₁ c₂ := by
  refine ⟨Workings.nonempty_of_build h, fun w m₁ hm₁ m₂ hm₂ hne op₁ op₂ hop₁ hop₂ => ?_⟩
  have htype := w.typeName_ne h hm₁ hm₂ hne
  have hspelled : Operation.collectionName m₁.typeName ≠ Operation.collectionName m₂.typeName ↔
      pascalCase (plural m₁.typeName) ≠ pascalCase (plural m₂.typeName) := not_congr camelCase_eq_iff
  have hplural (h₁ : isPascal m₁.typeName = true) (h₂ : isPascal m₂.typeName = true) :
      Operation.collectionName m₁.typeName ≠ Operation.collectionName m₂.typeName ↔
        plural m₁.typeName ≠ plural m₂.typeName := by
    rw [hspelled, pascalCase_plural h₁, pascalCase_plural h₂]
  refine ⟨_, _, hop₁.reads h hm₁, hop₂.reads h hm₂, ⟨hspelled, fun h₁ h₂ => ?_, ?_⟩⟩
  · rw [hplural h₁ h₂, ne_eq, plural_eq_iff]
    simp [htype]
  · intro h₁ h₂ hlist₁ hlist₂
    exact (hplural h₁ h₂).mpr (plural_ne_of_apart (w.apart h hm₁ hm₂ hne) hlist₁ hlist₂)

section Example

/-- Pages and users are both listed. -/
def listsContext : Context :=
  .ofSettings "lists" (.ofList [
    ("resolvers", .strings ["Builtin"]),
    ("defaultResolver", .string "Builtin::resolve"),
    ("models", .ofPairs [
      ("App.Page", .ofPairs [("operations", .strings ["read"])]),
      ("App.User", .ofPairs [("operations", .strings ["read"])])])])

theorem build_collectionsApart_lists : ∃ s, (libraryBuilder.build listsContext).1 = .ok s ∧
    (s.object? queryType).map (·.fields.keys) = some ["readPages", "readUsers"] ∧
    Nonempty (libraryBuilder.Workings listsContext) ∧
    ∀ w : libraryBuilder.Workings listsContext, ∀ m₁ ∈ w.models, ∀ m₂ ∈ w.models, m₁ ≠ m₂ →
      ∀ op₁ op₂, w.Generates m₁ op₁ → w.Generates m₂ op₂ →
        ∃ c₁ c₂, op₁.Reads s m₁.typeName c₁ ∧ op₂.Reads s m₂.typeName c₂ ∧
          w.CollectionsApart m₁ m₂ c₁ c₂ := by
  have hfields : (libraryBuilder.build listsContext).1.toOption.map
      (fun s => (s.object? queryType).map (·.fields.keys)) = some (some ["readPages", "readUsers"]) := by
    decide +kernel
  obtain ⟨s, hs, hfields⟩ := Option.map_eq_some_iff.mp hfields
  have hbuild := eq_ok_of_toOption hs
  exact ⟨s, hbuild, hfields, build_collectionsApart libraryBuilder listsContext s hbuild⟩

/-- Two classes whose types are spelled apart by an underscore only. -/
def blogIndex : Index where
  descriptors := .ofList [
    ("App.BlogPost", ⟨"App.BlogPost", .ordinary, none, [], false, none,
      .ofList [("title", .short "String")], "a.json"⟩),
    ("App.Blog_Post", ⟨"App.Blog_Post", .ordinary, none, [], false, none,
      .ofList [("title", .short "String")], "b.json"⟩)]
  implicitMarkers := []
  edges := []

def blogBuilder : Builder where
  index := blogIndex
  scene := ⟨.builtin, "/", .emptyFolder⟩
  registry := .withBuiltins
  makers := [Entity.maker blogIndex]

def blogContext : Context :=
  .ofSettings "blog" (.ofList [
    ("resolvers", .strings ["Builtin"]),
    ("defaultResolver", .string "Builtin::resolve"),
    ("models", .ofPairs [
      ("App.BlogPost", .ofPairs [("operations", .strings ["read", "readOne"])]),
      ("App.Blog_Post", .ofPairs [("operations", .strings ["read", "readOne"])])])])

theorem exists_blogList (w : blogBuilder.Workings blogContext) {s : Schema}
    (hbuild : (blogBuilder.build blogContext).1 = .ok s) :
    ∀ e ∈ [("App.BlogPost", "BlogPost"), ("App.Blog_Post", "Blog_Post")],
      ∃ m ∈ w.models, m.className = e.1 ∧ m.typeName = e.2 ∧ w.Generates m .read := by
  have hentities : blogBuilder.Entities blogContext := by
    apply entities_ofSettings
    intro maker hmaker
    exact List.mem_singleton.mp hmaker
  obtain ⟨classes, hload, hmodels, -⟩ := w.exists_classes hentities hbuild
  have hclasses : (BulkLoad.apply blogBuilder.scene blogBuilder.index blogContext.settings).1.toOption =
      some ["App.BlogPost", "App.Blog_Post"] := by
    decide +kernel
  rw [hload] at hclasses
  obtain rfl : classes = ["App.BlogPost", "App.Blog_Post"] := Option.some.inj hclasses
  have hqueries : ((BulkLoad.apply blogBuilder.scene blogBuilder.index blogContext.settings).2.sectionOr
      (Value.asDict FieldSettings.decode) "queries" .empty).toOption.map (·.entries.isEmpty) =
        some true := by
    decide +kernel
  have hsettled : ∀ e ∈ [("App.BlogPost", "BlogPost"), ("App.Blog_Post", "Blog_Post")],
      (Entity.typeName (BulkLoad.apply blogBuilder.scene blogBuilder.index blogContext.settings).2
          e.1).toOption = some e.2 ∧
        (modelSettings (BulkLoad.apply blogBuilder.scene blogBuilder.index blogContext.settings).2
          e.1).toOption.map (·.operations) = some [.read, .readOne] := by
    decide +kernel
  rw [← w.settings_eq] at hqueries hsettled
  rw [w.queries_ok] at hqueries
  intro e he
  obtain ⟨m, hm, -, -, hmodel⟩ := hmodels e.1 (List.mem_map_of_mem he)
  obtain ⟨hname, hown⟩ := hsettled e he
  obtain ⟨own, hown, hops⟩ := Option.map_eq_some_iff.mp hown
  rw [hmodel.typeName] at hname
  refine ⟨m, hm, hmodel.className, Option.some.inj hname, ⟨own, ?_, by simp [hops]⟩, ?_⟩
  · rw [hmodel.className]
    exact eq_ok_of_toOption hown
  · have hnone : w.queries.entries = [] := List.isEmpty_iff.mp (Option.some.inj hqueries)
    rw [Dict.get?, hnone]
    rfl

/-- The lists `readBlogPosts` and `readBlog_Posts` both give the items of the collection `blogPosts`. -/
theorem not_collectionsApart_blog : ¬ ∀ (b : Builder) (ctx : Context) (s : Schema),
    (b.build ctx).1 = .ok s →
    ∀ w : b.Workings ctx, ∀ m₁ ∈ w.models, ∀ m₂ ∈ w.models, m₁ ≠ m₂ →
      ∀ op₁ op₂, w.Generates m₁ op₁ → w.Generates m₂ op₂ →
        ∀ c₁ c₂, op₁.Reads s m₁.typeName c₁ → op₂.Reads s m₂.typeName c₂ → c₁ ≠ c₂ := by
  intro hall
  have hsome : (blogBuilder.build blogContext).1.toOption.isSome = true := by
    decide +kernel
  obtain ⟨s, hs⟩ := Option.isSome_iff_exists.mp hsome
  have hbuild := eq_ok_of_toOption hs
  obtain ⟨w⟩ := Workings.nonempty_of_build hbuild
  obtain ⟨m₁, hm₁, hclass₁, hname₁, hop₁⟩ := exists_blogList w hbuild ("App.BlogPost", "BlogPost") (by simp)
  obtain ⟨m₂, hm₂, hclass₂, hname₂, hop₂⟩ := exists_blogList w hbuild ("App.Blog_Post", "Blog_Post") (by simp)
  have hne : m₁ ≠ m₂ := by
    rintro rfl
    rw [hclass₁] at hclass₂
    exact absurd hclass₂ (by decide)
  refine hall blogBuilder blogContext s hbuild w m₁ hm₁ m₂ hm₂ hne .read .read hop₁ hop₂ _ _
    (hop₁.reads hbuild hm₁) (hop₂.reads hbuild hm₂) ?_
  rw [hname₁, hname₂]
  decide +kernel

end Example

end Builder

end ClassSchema
