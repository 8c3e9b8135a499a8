import ClassSchema.Build.BulkLoad
import ClassSchema.Proofs.Class.Retyped
import ClassSchema.Proofs.Selection.Conjunction

/-!
# Selecting by reflection

A loader sees of an index what reflection tells: which names it knows, what descends from what, and which
classes carry a marker. So bulk loads do the same with all indexes that tell the same and hold the same
classes.
-/

namespace ClassSchema

variable {ix ix' : Index}

/-- The loader asks an index for nothing that reflection does not tell. -/
def Loader.Reflective (l : Loader) : Prop := ∀ ix ix', Index.SameReflection ix ix' →
  l.validate ix = l.validate ix' ∧ ∀ c, l.collect c ix = l.collect c ix'

/-- All loaders of the table do so. -/
def LoaderTable.Reflective (t : LoaderTable) : Prop :=
  ∀ base files entry l, t.make base files entry = .ok l → l.Reflective

namespace BuiltinLoader

theorem reflective_of_make {b : BuiltinLoader} {l : Loader} (h : b.make = .ok l) : l.Reflective := by
  intro ix ix' hsame
  cases b with
  | byAncestor patterns =>
    obtain rfl := Except.ok.inj h
    have htarget : Loader.Inheritance.checkTarget ix = Loader.Inheritance.checkTarget ix' := by
      funext target
      simp only [Loader.Inheritance.checkTarget, hsame.hasClass, hsame.hasMarkerNamed, hsame.knownNames]
    have hmatch : Loader.Inheritance.isMatch ix = Loader.Inheritance.isMatch ix' := by
      funext name target
      simp only [Loader.Inheritance.isMatch, hsame.isSubclass]
    constructor
    · simp only [Loader.byAncestor, htarget]
    · intro c
      simp only [Loader.byAncestor, hmatch]
  | byMarker patterns =>
    obtain rfl := Except.ok.inj h
    have htarget : Loader.Marker.checkTarget ix = Loader.Marker.checkTarget ix' := by
      funext target
      simp only [Loader.Marker.checkTarget, hsame.hasClass, hsame.hasMarkerNamed, hsame.knownNames]
    have hmatch : ix.hasMarker = ix'.hasMarker := by
      funext name marker
      exact hsame.hasMarker name marker
    constructor
    · simp only [Loader.byMarker, htarget]
    · intro c
      simp only [Loader.byMarker, hmatch]
  | byName patterns =>
    rw [make, Loader.byName] at h
    split at h
    · cases h
    · obtain rfl := Except.ok.inj h
      exact ⟨rfl, fun _ => rfl⟩
  | byFile options =>
    rw [make, Loader.byFile] at h
    split at h
    · cases h
    · obtain rfl := Except.ok.inj h
      exact ⟨rfl, fun _ => rfl⟩

end BuiltinLoader

theorem LoaderTable.reflective_builtin : builtin.Reflective := by
  intro base files entry l h
  obtain ⟨b, -, hb⟩ := BuiltinLoader.exists_make_of_table h
  exact BuiltinLoader.reflective_of_make hb

namespace Pipeline

variable {p : Pipeline}

theorem reflective_ofEntries {t : LoaderTable} (ht : t.Reflective) {base : String} {files : FileTree}
    {initial : Collection} {entries : List LoaderEntry}
    (h : ofEntries t base files initial entries = .ok p) : ∀ l ∈ p.loaders, l.Reflective := by
  rw [ofEntries] at h
  split at h
  · cases h
  · next loaders hloaders =>
    obtain rfl := Except.ok.inj h
    intro l hl
    obtain ⟨entry, -, hentry⟩ := exists_mem_of_traverse hloaders hl
    exact ht base files entry l hentry

theorem validate_congr (hp : ∀ l ∈ p.loaders, l.Reflective) (h : ix.SameReflection ix') :
    p.validate ix = p.validate ix' :=
  checkEach_congr fun l hl => (hp l hl ix ix' h).1

theorem process_congr (hp : ∀ l ∈ p.loaders, l.Reflective) (h : ix.SameReflection ix') :
    p.process ix = p.process ix' := by
  obtain ⟨initial, loaders⟩ := p
  change run ix loaders initial = run ix' loaders initial
  induction loaders generalizing initial with
  | nil => rfl
  | cons l loaders ih =>
    obtain ⟨hl, hloaders⟩ := List.forall_mem_cons.mp hp
    have hstage : stage ix l initial = stage ix' l initial := by
      rw [stage, stage, (hl ix ix' h).2]
    rw [run, run, hstage]
    cases stage ix' l initial with
    | error e => rfl
    | ok next => exact ih next hloaders

end Pipeline

namespace BulkLoad

variable {scene : LoaderScene}

theorem prepare_congr (hscene : scene.table.Reflective) (h : ix.SameReflection ix')
    (hcollection : ix.collection = ix'.collection) : prepare scene ix = prepare scene ix' := by
  funext block
  rw [prepare, prepare, ← hcollection]
  cases hp : Pipeline.ofEntries scene.table scene.base scene.files ix.collection block.2.load with
  | error e => rfl
  | ok p =>
    dsimp only
    rw [Pipeline.validate_congr (Pipeline.reflective_ofEntries hscene hp) h]

theorem runPrepared_congr (hscene : scene.table.Reflective) (h : ix.SameReflection ix')
    {block : String × BulkLoadBlock} {prepared : String × Dict Value × Pipeline}
    (hprepared : prepare scene ix block = .ok prepared) :
    runPrepared ix prepared = runPrepared ix' prepared := by
  rw [prepare] at hprepared
  split at hprepared
  · cases hprepared
  · next p hp =>
    split at hprepared
    · cases hprepared
    · obtain rfl := Except.ok.inj hprepared
      rw [runPrepared, runPrepared, Pipeline.process_congr (Pipeline.reflective_ofEntries hscene hp) h]

theorem apply_congr (hscene : scene.table.Reflective) (h : ix.SameReflection ix')
    (hcollection : ix.collection = ix'.collection) (settings : Settings) :
    apply scene ix settings = apply scene ix' settings := by
  have hcheck : checkClass ix = checkClass ix' := by
    funext className
    rw [checkClass, checkClass, h.hasClass, h.knownNames]
  have hrun : run scene ix settings = run scene ix' settings := by
    rw [run, run, ← prepare_congr hscene h hcollection]
    split
    · rfl
    · next blocks hblocks =>
      cases hprepared : traverse (prepare scene ix) blocks.entries with
      | error e => rfl
      | ok prepared =>
        refine traverse_congr fun block hblock => ?_
        obtain ⟨source, -, hsource⟩ := exists_mem_of_traverse hprepared hblock
        exact runPrepared_congr hscene h hsource
  rw [apply, apply, hcheck, hrun]

end BulkLoad

end ClassSchema
