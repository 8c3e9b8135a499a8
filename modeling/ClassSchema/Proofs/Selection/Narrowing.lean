import ClassSchema.Proofs.Dict
import ClassSchema.Selection.Pipeline

/-!
# What loaders can do to a collection

Loaders may return anything. The guard of a stage goes by the names of classes: a class that was not in the
input is dropped, while a class of the input stands with whatever file the loader gave it.
-/

namespace ClassSchema

/-- The loader gives a class of the collection back under another file. -/
def Loader.Refiles (l : Loader) (ix : Index) (c : Collection) (name file : String) : Prop :=
  ∃ returned, l.collect c ix = .ok returned ∧ returned.get? name = some file ∧
    ∃ old, c.get? name = some old ∧ old ≠ file

namespace Pipeline

variable {ix : Index} {l : Loader} {ls ms : List Loader} {c before after result : Collection}
  {name file : String}

theorem get?_stage (h : stage ix l before = .ok after) : ∃ returned, l.collect before ix = .ok returned ∧
    ∀ name, after.get? name = if before.contains name then returned.get? name else none := by
  rw [stage] at h
  cases hcollect : l.collect before ix with
  | error e => simp [hcollect] at h
  | ok returned =>
    refine ⟨returned, rfl, ?_⟩
    intro name
    simp only [hcollect, Except.ok.injEq] at h
    subst h
    by_cases hwithin : Collection.isWithin returned before = true
    · rw [if_pos hwithin]
      by_cases hbefore : before.contains name = true
      · rw [if_pos hbefore]
      · rw [if_neg hbefore]
        -- A class within the input is in the input.
        rw [Collection.isWithin, List.all_eq_true] at hwithin
        by_contra hsome
        exact hbefore (hwithin name ((Dict.mem_keys_iff _ _).mpr hsome))
    · rw [if_neg hwithin]
      exact Dict.get?_filter_name returned before.contains name

/-- No class gets in. A class that stays has the file that the loader gave it. -/
theorem stage_narrows (h : stage ix l before = .ok after) :
    (∀ name, after.contains name = true → before.contains name = true) ∧ ∀ name file,
      (after.get? name = some file → before.get? name = some file ∨ l.Refiles ix before name file) ∧
      (l.Refiles ix before name file → after.get? name = some file) := by
  obtain ⟨returned, hcollect, hget⟩ := get?_stage h
  refine ⟨?_, ?_⟩
  · intro name hafter
    rw [Dict.contains, hget name] at hafter
    by_contra hbefore
    simp [hbefore] at hafter
  · intro name file
    constructor
    · intro hafter
      rw [hget name] at hafter
      split at hafter
      · next hbefore =>
        obtain ⟨old, hold⟩ := Option.isSome_iff_exists.mp hbefore
        by_cases hsame : old = file
        · exact .inl (hsame ▸ hold)
        · exact .inr ⟨returned, hcollect, hafter, old, hold, hsame⟩
      · cases hafter
    · rintro ⟨again, hagain, hfile, old, hold, -⟩
      obtain rfl : again = returned := by
        rw [hcollect] at hagain
        exact (Except.ok.inj hagain).symm
      rw [hget name, Dict.contains, hold]
      simpa using hfile

theorem run_append_ok_iff : run ix (ls ++ ms) c = .ok result ↔
    ∃ between, run ix ls c = .ok between ∧ run ix ms between = .ok result := by
  induction ls generalizing c with
  | nil => simp [run]
  | cons l ls ih =>
    simp only [List.cons_append, run]
    cases stage ix l c with
    | error e => simp
    | ok next => exact ih

/-- Some loader gives the class back under this file where it had another. -/
def Refiled (ix : Index) (ls : List Loader) (c : Collection) (name file : String) : Prop :=
  ∃ earlier l later before, ls = earlier ++ l :: later ∧ run ix earlier c = .ok before ∧
    l.Refiles ix before name file

theorem run_narrows (h : run ix ls c = .ok result) :
    (∀ name, result.contains name = true → c.contains name = true) ∧ ∀ name file,
      result.get? name = some file → c.get? name = some file ∨ Refiled ix ls c name file := by
  induction ls generalizing c with
  | nil =>
    obtain rfl := Except.ok.inj h
    exact ⟨fun _ hname => hname, fun _ _ hfile => .inl hfile⟩
  | cons l ls ih =>
    rw [run] at h
    cases hstage : stage ix l c with
    | error e => simp [hstage] at h
    | ok next =>
      rw [hstage] at h
      obtain ⟨hclasses, hentries⟩ := ih h
      obtain ⟨hstep, hfiles⟩ := stage_narrows hstage
      constructor
      · intro name hname
        exact hstep name (hclasses name hname)
      · intro name file hfile
        rcases hentries name file hfile with hnext | ⟨earlier, m, later, before, rfl, hrun, hrefiles⟩
        · rcases (hfiles name file).1 hnext with hc | hrefiles
          · exact .inl hc
          · exact .inr ⟨[], l, ls, c, rfl, rfl, hrefiles⟩
        · refine .inr ⟨l :: earlier, m, later, before, rfl, ?_, hrefiles⟩
          rw [run, hstage]
          exact hrun

/-- Whatever its loaders return, a pipeline that succeeds has after each stage only classes from before the
stage, and so of the initial collection. An entry from after a stage stood there before, unless the stage's
loader gave the class that file in place of another; and it stood in the initial collection, unless some
loader up to there did. -/
theorem process_narrows (p : Pipeline) (ix : Index) (result : Collection)
    (h : p.process ix = .ok result) (earlier later : List Loader) (l : Loader)
    (hstage : p.loaders = earlier ++ l :: later) :
    ∃ before after, run ix earlier p.initial = .ok before ∧ stage ix l before = .ok after ∧
      run ix later after = .ok result ∧
      (∀ name, after.contains name = true →
        before.contains name = true ∧ p.initial.contains name = true) ∧
      (∀ name file, after.get? name = some file →
        (before.get? name = some file ∨ l.Refiles ix before name file) ∧
          (p.initial.get? name = some file ∨ Refiled ix (earlier ++ [l]) p.initial name file)) ∧
      ∀ name file, l.Refiles ix before name file → after.get? name = some file := by
  rw [process, hstage] at h
  obtain ⟨before, hearlier, hrest⟩ := run_append_ok_iff.mp h
  rw [run] at hrest
  cases hafter : stage ix l before with
  | error e => simp [hafter] at hrest
  | ok after =>
    rw [hafter] at hrest
    have hrun : run ix (earlier ++ [l]) p.initial = .ok after := by
      apply run_append_ok_iff.mpr
      refine ⟨before, hearlier, ?_⟩
      simp [run, hafter]
    obtain ⟨hclasses, hentries⟩ := run_narrows hrun
    obtain ⟨hstep, hfiles⟩ := stage_narrows hafter
    refine ⟨before, after, hearlier, hafter, hrest, ?_, ?_, ?_⟩
    · intro name hname
      exact ⟨hstep name hname, hclasses name hname⟩
    · intro name file hfile
      exact ⟨(hfiles name file).1 hfile, hentries name file hfile⟩
    · intro name file hrefiles
      exact (hfiles name file).2 hrefiles

section Example

/-- A loader that gives pages back under another file and a class of its own besides. -/
def refiling : Loader where
  id := "refilingLoader"
  patterns := ⟨[], []⟩
  validate := fun _ => .ok ()
  collect := fun c _ => .ok ((c.insert "Page" "moved.toml").insert "Invented" "moved.toml")

def shelved : Pipeline :=
  ⟨.ofList [("Member", "member.toml"), ("Page", "page.toml")], [Loader.byMarker ⟨[], []⟩, refiling]⟩

theorem process_narrows_shelved : ∃ ix result, shelved.process ix = .ok result ∧
    result.entries = [("Member", "member.toml"), ("Page", "moved.toml")] ∧
    ∃ before after, run ix [Loader.byMarker ⟨[], []⟩] shelved.initial = .ok before ∧
      stage ix refiling before = .ok after ∧ run ix [] after = .ok result ∧
      (∀ name, after.contains name = true →
        before.contains name = true ∧ shelved.initial.contains name = true) ∧
      (∀ name file, after.get? name = some file →
        (before.get? name = some file ∨ refiling.Refiles ix before name file) ∧
          (shelved.initial.get? name = some file ∨
            Refiled ix ([Loader.byMarker ⟨[], []⟩] ++ [refiling]) shelved.initial name file)) ∧
      ∀ name file, refiling.Refiles ix before name file → after.get? name = some file := by
  let ix : Index := ⟨.empty, [], []⟩
  have hrun : shelved.process ix = .ok ⟨[("Member", "member.toml"), ("Page", "moved.toml")]⟩ := by
    decide +kernel
  exact ⟨ix, _, hrun, rfl, process_narrows shelved ix _ hrun [Loader.byMarker ⟨[], []⟩] [] refiling rfl⟩

/-- Entries may come in at a stage that were not there before, classes apart. -/
theorem not_entries_shelved : ¬ ∀ (p : Pipeline) (ix : Index) (result : Collection),
    p.process ix = .ok result → ∀ (earlier later : List Loader) (l : Loader) (before after : Collection),
      p.loaders = earlier ++ l :: later → run ix earlier p.initial = .ok before →
        stage ix l before = .ok after → ∀ name file, after.get? name = some file →
          before.get? name = some file ∧ p.initial.get? name = some file := by
  intro hentries
  let ix : Index := ⟨.empty, [], []⟩
  have hrun : shelved.process ix = .ok ⟨[("Member", "member.toml"), ("Page", "moved.toml")]⟩ := by
    decide +kernel
  have hstage : stage ix refiling shelved.initial =
      .ok ⟨[("Member", "member.toml"), ("Page", "moved.toml")]⟩ := by
    decide +kernel
  have hfirst : run ix [Loader.byMarker ⟨[], []⟩] shelved.initial = .ok shelved.initial := by
    decide +kernel
  obtain ⟨hbefore, -⟩ := hentries shelved ix _ hrun [Loader.byMarker ⟨[], []⟩] [] refiling _ _ rfl
    hfirst hstage "Page" "moved.toml" (by decide +kernel)
  exact absurd hbefore (by decide +kernel)

end Example

end Pipeline

end ClassSchema
