import ClassSchema.Build.BulkLoad
import ClassSchema.Proofs.Settings.Tree
import ClassSchema.Proofs.Traverse

/-!
# Layers of model settings

Blocks are laid over settings that hold those of the classes already, and these are laid on top once more.
What comes out is as if every class had the blocks that select it, in their order, and its own settings on
top, and nothing else had changed.
-/

namespace ClassSchema

section Decoding

variable {α : Type} {decode : Value → Option α} {v : Value} {d : Dict α} {a : α}

theorem Value.exists_of_mem_decodeEntries {es : List (String × Value)} {decoded : List (String × α)}
    (h : decodeEntries decode es = some decoded) {e : String × α} (he : e ∈ decoded) :
    ∃ w, decode w = some e.2 := by
  induction es generalizing decoded with
  | nil =>
    obtain rfl := Option.some.inj h
    cases he
  | cons entry es ih =>
    simp only [decodeEntries, Option.bind_eq_bind, Option.bind_eq_some_iff, Option.pure_def,
      Option.some.injEq] at h
    obtain ⟨first, hfirst, rest, hrest, rfl⟩ := h
    rcases List.mem_cons.mp he with rfl | he
    · exact ⟨_, hfirst⟩
    · exact ih hrest he

theorem Value.asDict_some (h : asDict decode v = some d) :
    d.Sorted ∧ ∀ e ∈ d.entries, ∃ w, decode w = some e.2 := by
  simp only [asDict, Option.bind_eq_bind, Option.bind_eq_some_iff, Option.pure_def,
    Option.some.injEq] at h
  obtain ⟨fields, -, decoded, hdecoded, rfl⟩ := h
  refine ⟨Dict.sorted_ofList decoded, ?_⟩
  intro e he
  have hget := ((Dict.sorted_ofList decoded).get?_eq_some_iff e.1 e.2).mpr he
  rw [Dict.get?_ofList] at hget
  have hmem := List.mem_reverse.mp (Dict.mem_of_lookup hget)
  exact exists_of_mem_decodeEntries hdecoded hmem

theorem Settings.sectionOr_ok {settings : Settings} {name : String} {default : α}
    (h : settings.sectionOr decode name default = .ok a) :
    (settings.get? name = none ∧ a = default) ∨
      ∃ w, settings.get? name = some w ∧ decode w = some a := by
  rw [sectionOr, getAs, get] at h
  cases hcheck : (SettingsPath.ofSegments [name]).check with
  | error e => simp [hcheck] at h
  | ok u =>
    have hvalue : settings.valueAt (SettingsPath.ofSegments [name]).segments = settings.get? name := rfl
    cases hget : settings.get? name with
    | none =>
      simp only [hcheck, hvalue, hget, Option.getD_none, Except.ok.injEq] at h
      exact .inl ⟨rfl, h.symm⟩
    | some w =>
      cases hdecode : decode w with
      | none => simp [hcheck, hvalue, hget, hdecode] at h
      | some b =>
        simp only [hcheck, hvalue, hget, hdecode, Option.getD_some, Except.ok.injEq] at h
        exact .inr ⟨w, rfl, h ▸ hdecode⟩

theorem Settings.sectionOr_asDict {settings : Settings} {name : String}
    (h : settings.sectionOr (Value.asDict decode) name .empty = .ok d) :
    d.Sorted ∧ ∀ e ∈ d.entries, ∃ w, decode w = some e.2 := by
  rcases sectionOr_ok h with ⟨-, rfl⟩ | ⟨w, -, hdecode⟩
  · refine ⟨Dict.sorted_empty, ?_⟩
    intro e he
    cases he
  · exact Value.asDict_some hdecode

theorem BulkLoadBlock.ordered_apply {b : BulkLoadBlock} (h : BulkLoadBlock.decode v = some b) :
    (Value.table b.apply).ordered = .table b.apply := by
  simp only [BulkLoadBlock.decode, Option.bind_eq_bind, Option.bind_eq_some_iff, Option.pure_def,
    Option.some.injEq] at h
  obtain ⟨fields, -, load, -, applied, happlied, rfl⟩ := h
  rw [Dict.defaulted] at happlied
  split at happlied
  · obtain rfl := Option.some.inj happlied
    rfl
  · exact Value.ordered_of_asTable happlied

end Decoding

namespace BulkLoad

variable {scene : LoaderScene} {ix : Index} {settings settings' : Settings} {runs : List BlockRun}
  {blocks : Dict BulkLoadBlock} {chosen : Dict Collection} {explicit : Dict Value} {ls : List Layer}

/-- Whether a block selects a class. -/
def selects (chosen : Dict Collection) (block className : String) : Bool :=
  (chosen.get? block).any (·.contains className)

/-! ## Laying one layer after the other -/

theorem layOver_ok (h : layOver ls settings = (.ok (), settings')) :
    (∀ className, settings'.valueAt ["models", className] =
      Value.layered ((settings.valueAt ["models", className]).toList ++
        (ls.filter fun l => l.1 = className).map (·.2))) ∧
    ∀ path, (∀ l ∈ ls, Settings.Apart path ["models", l.1]) →
      settings'.valueAt path = settings.valueAt path := by
  induction ls generalizing settings with
  | nil =>
    obtain rfl := (Prod.mk.inj h).2
    refine ⟨?_, fun _ _ => rfl⟩
    intro className
    cases settings.valueAt ["models", className] <;> rfl
  | cons l ls ih =>
    obtain ⟨name, v⟩ := l
    rw [layOver] at h
    cases hmerge : settings.merge (modelPath name) v with
    | error e => simp [hmerge] at h
    | ok next =>
      rw [hmerge] at h
      obtain ⟨hlayers, hrest⟩ := ih h
      obtain ⟨hlaid, hbeside⟩ := Settings.merge_ok hmerge
      constructor
      · intro className
        rw [hlayers]
        by_cases hname : name = className
        · subst hname
          have hthere : next.valueAt ["models", name] =
            some (Value.layOn (settings.valueAt ["models", name]) v) := hlaid
          rw [hthere, List.filter_cons_of_pos (by simp), List.map_cons]
          exact Value.layered_layOn _ v _
        · have hapart : Settings.Apart ["models", className] ["models", name] := by
            simp [Settings.apart_cons_iff, Ne.symm hname]
          rw [hbeside _ hapart, List.filter_cons_of_neg (by simpa using hname)]
      · intro path hpath
        obtain ⟨hfirst, hothers⟩ := List.forall_mem_cons.mp hpath
        rw [hrest path hothers, hbeside path hfirst]

/-! ## The blocks -/

theorem sectionOr_blocks
    (h : settings.sectionOr (Value.asDict BulkLoadBlock.decode) "bulkLoad" .empty = .ok blocks) :
    blocks.Sorted ∧ ∀ b ∈ blocks.entries, (Value.table b.2.apply).ordered = .table b.2.apply := by
  obtain ⟨hsorted, hentries⟩ := Settings.sectionOr_asDict h
  refine ⟨hsorted, ?_⟩
  intro b hb
  obtain ⟨v, hv⟩ := hentries b hb
  exact BulkLoadBlock.ordered_apply hv

theorem run_ok (h : run scene ix settings = .ok runs) : ∃ blocks,
    settings.sectionOr (Value.asDict BulkLoadBlock.decode) "bulkLoad" .empty = .ok blocks ∧
      blocks.entries.map (fun b => (b.1, b.2.apply)) = runs.map fun r => (r.name, r.apply) := by
  rw [run] at h
  cases hblocks : settings.sectionOr (Value.asDict BulkLoadBlock.decode) "bulkLoad" .empty with
  | error e => simp [hblocks] at h
  | ok blocks =>
    cases hprepared : traverse (prepare scene ix) blocks.entries with
    | error e => simp [hblocks, hprepared] at h
    | ok prepared =>
      simp only [hblocks, hprepared] at h
      refine ⟨blocks, rfl, ?_⟩
      have hfirst : blocks.entries.map (fun b => (b.1, b.2.apply)) =
          prepared.map fun p => (p.1, p.2.1) := by
        apply map_eq_map_of_traverse hprepared
        intro b p hp
        rw [prepare] at hp
        split at hp
        · cases hp
        · split at hp
          · cases hp
          · obtain rfl := Except.ok.inj hp
            rfl
      have hthen : prepared.map (fun p => (p.1, p.2.1)) = runs.map fun r => (r.name, r.apply) := by
        apply map_eq_map_of_traverse h
        intro p r hr
        rw [runPrepared] at hr
        split at hr
        · cases hr
        · obtain rfl := Except.ok.inj hr
          rfl
      exact hfirst.trans hthen

theorem get?_chosen (hblocks : blocks.Sorted)
    (hruns : blocks.entries.map (fun b => (b.1, b.2.apply)) = runs.map fun r => (r.name, r.apply)) :
    (∀ r ∈ runs, (Dict.ofList (runs.map fun r => (r.name, r.selected))).get? r.name =
      some r.selected) ∧
    ∀ name selected, (Dict.ofList (runs.map fun r => (r.name, r.selected))).get? name =
      some selected → ∃ r ∈ runs, r.name = name ∧ r.selected = selected := by
  have hnames : runs.map BlockRun.name = blocks.entries.map (·.1) := by
    have hmap := congrArg (List.map (·.1)) hruns
    rw [List.map_map, List.map_map] at hmap
    exact hmap.symm
  have hsorted : (Dict.mk (runs.map fun r => (r.name, r.selected))).Sorted := by
    have hblocks : (blocks.entries.map (·.1)).Pairwise (· < ·) := List.pairwise_map.mpr hblocks
    rw [← hnames] at hblocks
    exact List.pairwise_map.mpr (List.pairwise_map.mp hblocks)
  rw [hsorted.ofList_entries]
  constructor
  · intro r hr
    apply (hsorted.get?_eq_some_iff _ _).mpr
    exact List.mem_map_of_mem (f := fun r : BlockRun => (r.name, r.selected)) hr
  · intro name selected hget
    obtain ⟨r, hr, hpair⟩ := List.mem_map.mp ((hsorted.get?_eq_some_iff _ _).mp hget)
    obtain ⟨rfl, rfl⟩ := Prod.mk.inj hpair
    exact ⟨r, hr, rfl, rfl⟩

theorem map_apply_filter (hruns : blocks.entries.map (fun b => (b.1, b.2.apply)) =
      runs.map fun r => (r.name, r.apply))
    (hchosen : ∀ r ∈ runs, chosen.get? r.name = some r.selected) (className : String) :
    (blocks.entries.filter fun b => selects chosen b.1 className).map (fun b => .table b.2.apply) =
      (runs.filter fun r => r.selected.contains className).map fun r => Value.table r.apply := by
  have hblocks : (blocks.entries.filter fun b => selects chosen b.1 className).map
      (fun b => Value.table b.2.apply) =
        ((blocks.entries.map fun b => (b.1, b.2.apply)).filter fun e =>
          selects chosen e.1 className).map fun e => Value.table e.2 := by
    rw [List.filter_map, List.map_map]
    rfl
  have hselects (r : BlockRun) (hr : r ∈ runs) :
      selects chosen r.name className = r.selected.contains className := by
    simp [selects, hchosen r hr]
  rw [hblocks, hruns, List.filter_map, List.map_map, ← List.filter_congr hselects]
  rfl

theorem foldl_flatMap_keys (runs : List BlockRun) (className : String) (path : List String)
    (old : Option Value) :
    (runs.flatMap fun r => (r.selected.keys.filter fun name => name = className).map fun _ =>
      Value.table r.apply).foldl (Value.seenOver path) old =
      ((runs.filter fun r => r.selected.contains className).map fun r => Value.table r.apply).foldl
        (Value.seenOver path) old := by
  induction runs generalizing old with
  | nil => rfl
  | cons r runs ih =>
    have hnone : (r.selected.keys.filter fun name => name = className).length = 0 ↔
        ¬ r.selected.contains className = true := by
      rw [Dict.contains_iff_mem_keys, List.length_eq_zero_iff, List.filter_eq_nil_iff]
      simp [List.forall_mem_ne']
    rw [List.flatMap_cons, List.foldl_append, ih, List.map_const', Value.foldl_seenOver_replicate]
    by_cases hselected : r.selected.contains className = true
    · rw [if_neg (by simp [hnone, hselected]), List.filter_cons, if_pos hselected]
      rfl
    · rw [if_pos (hnone.mpr hselected), List.filter_cons, if_neg hselected]

/-! ## All layers -/

theorem mem_modelled_iff (runs : List BlockRun) (explicit : Dict Value) (className : String) :
    className ∈ modelled runs explicit ↔
      explicit.get? className ≠ none ∨ ∃ r ∈ runs, r.selected.contains className = true := by
  rw [modelled, Dict.mem_keys_ofList]
  simp only [List.map_map, List.mem_map, List.mem_append, List.mem_flatMap, Function.comp_apply,
    exists_eq_right, ← Dict.mem_keys_iff, Dict.contains_iff_mem_keys]

theorem sectionOr_models (hsettings : (Value.table settings).ordered = .table settings)
    (h : settings.sectionOr Value.asTable "models" .empty = .ok explicit) :
    (Value.table explicit).ordered = .table explicit ∧
      ∀ className, explicit.get? className = settings.valueAt ["models", className] := by
  have hvalue (className : String) := Settings.valueAt_cons settings "models"
    (List.cons_ne_nil className [])
  rcases Settings.sectionOr_ok h with ⟨hget, rfl⟩ | ⟨w, hget, hdecode⟩
  · refine ⟨rfl, ?_⟩
    intro className
    rw [hvalue, hget]
    rfl
  · have hordered := Value.ordered_of_asTable hdecode
    refine ⟨hordered, ?_⟩
    intro className
    have hw : w.ordered = w := (Value.ordered_table_iff.mp hsettings).2 "models" w hget
    rw [Value.asTable, hw] at hdecode
    rw [hvalue, hget, Option.bind_some, hdecode]
    rfl

/-- The layers of one class. -/
theorem map_filter_layers (runs : List BlockRun) (hexplicit : explicit.Sorted) (className : String) :
    ((layers runs explicit).filter fun l => l.1 = className).map (·.2) =
      (runs.flatMap fun r => (r.selected.keys.filter fun name => name = className).map fun _ =>
        Value.table r.apply) ++ (explicit.get? className).toList := by
  rw [layers, List.filter_append, List.map_append, hexplicit.filter_key, List.filter_flatMap,
    List.map_flatMap]
  congr 2
  funext r
  rw [List.filter_map, List.map_map]
  rfl

theorem ordered_of_runs
    (happlied : ∀ b ∈ blocks.entries, (Value.table b.2.apply).ordered = .table b.2.apply)
    (hruns : blocks.entries.map (fun b => (b.1, b.2.apply)) = runs.map fun r => (r.name, r.apply)) :
    ∀ r ∈ runs, (Value.table r.apply).ordered = .table r.apply := by
  intro r hr
  have hpair : (r.name, r.apply) ∈ blocks.entries.map fun b => (b.1, b.2.apply) := by
    rw [hruns]
    exact List.mem_map_of_mem (f := fun r : BlockRun => (r.name, r.apply)) hr
  obtain ⟨b, hb, heq⟩ := List.mem_map.mp hpair
  rw [← (Prod.mk.inj heq).2]
  exact happlied b hb

/-- A class's own settings may lie at the bottom too, and blocks may come more than once. -/
theorem layered_copies {own : Option Value}
    (hruns : ∀ r ∈ runs, (Value.table r.apply).ordered = .table r.apply)
    (hown : ∀ v ∈ own, v.ordered = v) (className : String) :
    Value.layered (own.toList ++ ((runs.flatMap fun r =>
      (r.selected.keys.filter fun name => name = className).map fun _ => Value.table r.apply) ++
        own.toList)) =
      Value.layered (((runs.filter fun r => r.selected.contains className).map fun r =>
        Value.table r.apply) ++ own.toList) := by
  have htop : ∀ v ∈ own.toList, v.ordered = v := by simpa using hown
  have hcopies : ∀ v ∈ runs.flatMap fun r => (r.selected.keys.filter fun name => name = className).map
      fun _ => Value.table r.apply, v.ordered = v := by
    intro v hv
    obtain ⟨r, hr, hv⟩ := List.mem_flatMap.mp hv
    obtain ⟨name, -, rfl⟩ := List.mem_map.mp hv
    exact hruns r hr
  have honce : ∀ v ∈ (runs.filter fun r => r.selected.contains className).map fun r =>
      Value.table r.apply, v.ordered = v := by
    intro v hv
    obtain ⟨r, hr, rfl⟩ := List.mem_map.mp hv
    exact hruns r (List.mem_filter.mp hr).1
  rw [Value.layered_again hown hcopies]
  apply Value.layered_congr (List.forall_mem_append.mpr ⟨hcopies, htop⟩)
    (List.forall_mem_append.mpr ⟨honce, htop⟩)
  intro path
  rw [List.foldl_append, List.foldl_append, foldl_flatMap_keys]

theorem mem_modelled_of_mem_layers {l : Layer} (h : l ∈ layers runs explicit) :
    l.1 ∈ modelled runs explicit := by
  rw [mem_modelled_iff]
  rcases List.mem_append.mp h with h | h
  · obtain ⟨r, hr, hl⟩ := List.mem_flatMap.mp h
    obtain ⟨name, hname, rfl⟩ := List.mem_map.mp hl
    exact .inr ⟨r, hr, (Dict.contains_iff_mem_keys _ _).mpr hname⟩
  · exact .inl ((Dict.mem_keys_iff _ _).mp (List.mem_map_of_mem (f := (·.1)) h))

theorem apply_ok {classes : List String} (h : apply scene ix settings = (.ok classes, settings')) :
    ∃ explicit runs, settings.sectionOr Value.asTable "models" .empty = .ok explicit ∧
      run scene ix settings = .ok runs ∧ layOver (layers runs explicit) settings = (.ok (), settings') ∧
      classes = modelled runs explicit := by
  rw [apply] at h
  cases hmodels : settings.sectionOr Value.asTable "models" .empty with
  | error e => simp [hmodels] at h
  | ok explicit =>
    cases hknown : checkEach (checkClass ix) explicit.keys with
    | error e => simp [hmodels, hknown] at h
    | ok u =>
      cases hrun : run scene ix settings with
      | error e => simp [hmodels, hknown, hrun] at h
      | ok runs =>
        simp only [hmodels, hknown, hrun] at h
        refine ⟨explicit, runs, rfl, rfl, ?_⟩
        split at h
        · cases h
        · next last hlaid =>
          obtain ⟨hclasses, rfl⟩ := Prod.mk.inj h
          exact ⟨hlaid, (Except.ok.inj hclasses).symm⟩

/-- The classes to be modelled are those of the settings and those that blocks select. The settings of such a
class are those of its blocks in name order with its own on top, and other settings stay as they are. -/
theorem apply_layers (scene : LoaderScene) (ix : Index) (settings settings' : Settings)
    (classes : List String) (hsettings : (Value.table settings).ordered = .table settings)
    (h : apply scene ix settings = (.ok classes, settings')) : ∃ blocks chosen,
      settings.sectionOr (Value.asDict BulkLoadBlock.decode) "bulkLoad" .empty = .ok blocks ∧
      blocks.Sorted ∧ select scene ix settings = .ok chosen ∧
      (∀ className, className ∈ classes ↔ settings.valueAt ["models", className] ≠ none ∨
        ∃ block, selects chosen block className = true) ∧
      (∀ className ∈ classes, settings'.valueAt ["models", className] = Value.layered
        ((blocks.entries.filter fun b => selects chosen b.1 className).map
          (fun b => .table b.2.apply) ++ (settings.valueAt ["models", className]).toList)) ∧
      ∀ path, (∀ className ∈ classes, Settings.Apart path ["models", className]) →
        settings'.valueAt path = settings.valueAt path := by
  obtain ⟨explicit, runs, hmodels, hrun, hlaid, rfl⟩ := apply_ok h
  obtain ⟨blocks, hblocks, hruns⟩ := run_ok hrun
  obtain ⟨hsorted, happlied⟩ := sectionOr_blocks hblocks
  obtain ⟨hexplicit, hget⟩ := sectionOr_models hsettings hmodels
  obtain ⟨hexplicitSorted, hmembers⟩ := Value.ordered_table_iff.mp hexplicit
  obtain ⟨hfound, hchosen⟩ := get?_chosen hsorted hruns
  obtain ⟨hlayers, hrest⟩ := layOver_ok hlaid
  refine ⟨blocks, _, hblocks, hsorted, by rw [select, hrun], ?_, ?_, ?_⟩
  · intro className
    rw [mem_modelled_iff, hget]
    apply or_congr_right
    constructor
    · rintro ⟨r, hr, hselected⟩
      exact ⟨r.name, by rw [selects, hfound r hr]; exact hselected⟩
    · rintro ⟨block, hselects⟩
      obtain ⟨selected, hselected, hcontains⟩ := (Option.any_eq_true _ _).mp hselects
      obtain ⟨r, hr, -, rfl⟩ := hchosen block selected hselected
      exact ⟨r, hr, hcontains⟩
  · intro className _
    rw [hlayers, map_filter_layers runs hexplicitSorted, ← hget, map_apply_filter hruns hfound]
    exact layered_copies (ordered_of_runs happlied hruns) (hmembers className) className
  · intro path hpath
    apply hrest
    intro l hl
    exact hpath l.1 (mem_modelled_of_mem_layers hl)

section Example

/-- Records, pages that are records, and members. -/
def shelfIndex : Index where
  descriptors := .ofList [
    ("Member", ⟨"Member", .ordinary, none, [], false, none, .empty, "member.json"⟩),
    ("Page", ⟨"Page", .ordinary, some "Record", [], false, none, .empty, "page.json"⟩),
    ("Record", ⟨"Record", .ordinary, none, [], false, none, .empty, "record.json"⟩)]
  implicitMarkers := []
  edges := [("Page", "Record")]

/-- Two blocks that select pages, which have settings of their own besides. -/
def shelfSettings : Value :=
  .ofPairs [
    ("bulkLoad", .ofPairs [
      ("records", .ofPairs [
        ("load", .list [.ofPairs [("loader", .string "inheritanceLoader"),
          ("include", .strings ["Record"])]]),
        ("apply", .ofPairs [("description", .string "A record."), ("operations", .strings ["read"]),
          ("fields", .ofPairs [("title", .table .empty)])])]),
      ("pages", .ofPairs [
        ("load", .list [.ofPairs [("loader", .string "namespaceLoader"), ("include", .strings ["P*"])]]),
        ("apply", .ofPairs [("operations", .table .empty), ("fields", .string "*")])])]),
    ("models", .ofPairs [
      ("Member", .null),
      ("Page", .ofPairs [("description", .string "A page."),
        ("fields", .ofPairs [("body", .table .empty)])])])]

theorem apply_layers_shelf : ∃ (settings : Settings) (classes : List String) (settings' : Settings),
    Value.asTable shelfSettings = some settings ∧
    apply ⟨.builtin, "/", .emptyFolder⟩ shelfIndex settings = (.ok classes, settings') ∧
    classes = ["Member", "Page", "Record"] ∧
    ((settings'.valueAt ["models", "Page", "fields"]).bind Value.table?).map Dict.keys =
      some ["body", "title"] ∧
    ∃ blocks chosen,
      settings.sectionOr (Value.asDict BulkLoadBlock.decode) "bulkLoad" .empty = .ok blocks ∧
      blocks.Sorted ∧ select ⟨.builtin, "/", .emptyFolder⟩ shelfIndex settings = .ok chosen ∧
      (∀ className, className ∈ classes ↔ settings.valueAt ["models", className] ≠ none ∨
        ∃ block, selects chosen block className = true) ∧
      (∀ className ∈ classes, settings'.valueAt ["models", className] = Value.layered
        ((blocks.entries.filter fun b => selects chosen b.1 className).map
          (fun b => .table b.2.apply) ++ (settings.valueAt ["models", className]).toList)) ∧
      ∀ path, (∀ className ∈ classes, Settings.Apart path ["models", className]) →
        settings'.valueAt path = settings.valueAt path := by
  let settings : Settings := (Value.asTable shelfSettings).getD .empty
  let applied := apply ⟨.builtin, "/", .emptyFolder⟩ shelfIndex settings
  have hsettings : Value.asTable shelfSettings = some settings := rfl
  have hclasses : applied.1.toOption = some ["Member", "Page", "Record"] := by decide +kernel
  have hpage : ((applied.2.valueAt ["models", "Page", "fields"]).bind Value.table?).map Dict.keys =
      some ["body", "title"] := by
    decide +kernel
  have happlied : applied = (.ok ["Member", "Page", "Record"], applied.2) :=
    Prod.ext (eq_ok_of_toOption hclasses) rfl
  exact ⟨settings, _, applied.2, hsettings, happlied, rfl, hpage,
    apply_layers _ _ _ _ _ (Value.ordered_of_asTable hsettings) happlied⟩

end Example

end BulkLoad

end ClassSchema
