import ClassSchema.Proofs.Value.Merge
import ClassSchema.Settings.Tree

/-!
# Changes at a path

What is put at a path is found there, with all there is below it, and the paths beside it keep what they
had. A path is closed only where something else than a table stands on the way; a walk that meets it has
made no table yet, and leaves the tree as it was. A merge puts the value over what was there.
-/

namespace ClassSchema

/-- What a value has at a list of names, itself at none. -/
def Value.reach? (v : Value) : List String → Option Value
  | [] => some v
  | key :: path => (v.member? key).bind fun w => w.reach? path

theorem Value.reach?_append (v : Value) (p q : List String) :
    v.reach? (p ++ q) = (v.reach? p).bind fun w => w.reach? q := by
  induction p generalizing v with
  | nil => rfl
  | cons key p ih => simp only [List.cons_append, reach?, Option.bind_assoc, ih]

namespace Settings

variable {d d' inner : Settings} {key shown : String} {path q : List String} {p : SettingsPath}
  {v : Value} {e : Fault}

/-- Neither of the two paths leads on to the other. -/
def Apart (p q : List String) : Prop := ¬ p <+: q ∧ ¬ q <+: p

theorem apart_cons_iff {k l : String} :
    Apart (k :: path) (l :: q) ↔ k ≠ l ∨ Apart path q := by
  by_cases h : k = l
  · subst h
    simp [Apart, List.cons_prefix_cons]
  · simp [Apart, List.cons_prefix_cons, h, Ne.symm h]

theorem not_apart_nil_left : ¬ Apart [] q := fun h => h.1 List.nil_prefix

theorem not_apart_nil_right : ¬ Apart path [] := fun h => h.2 List.nil_prefix

@[simp] theorem valueAt_single (d : Settings) (key : String) : d.valueAt [key] = d.get? key := rfl

theorem valueAt_cons (d : Settings) (key : String) (hpath : path ≠ []) :
    d.valueAt (key :: path) = (d.get? key).bind fun v => v.table?.bind fun inner =>
      valueAt inner path := by
  cases path with
  | nil => exact absurd rfl hpath
  | cons next rest =>
    rw [valueAt]
    · cases d.get? key with
      | none => rfl
      | some v => cases v <;> rfl
    · simp

@[simp] theorem valueAt_empty (path : List String) : valueAt (.empty : Settings) path = none := by
  cases path with
  | nil => rfl
  | cons key path =>
    by_cases hpath : path = []
    · subst hpath
      rfl
    · rw [valueAt_cons _ _ hpath]
      rfl

theorem valueAt_insert_ne {name : String} (hname : name ≠ key) (v : Value) :
    valueAt (d.insert key v) (name :: path) = valueAt d (name :: path) := by
  by_cases hpath : path = []
  · subst hpath
    simp [hname]
  · simp [valueAt_cons _ _ hpath, hname]

theorem valueAt_insert_table (d : Settings) (key : String) (inner : Settings) (hpath : path ≠ []) :
    valueAt (d.insert key (.table inner)) (key :: path) = inner.valueAt path := by
  simp [valueAt_cons _ _ hpath, Value.table?]

/-! ## The walk -/

/-- The table a walk goes on in below a name: what stands there, or a new one where nothing stands. -/
def below (d : Settings) (key : String) : Option Settings :=
  (d.get? key).elim (some .empty) Value.table?

theorem valueAt_below (h : d.below key = some inner) (hpath : path ≠ []) :
    d.valueAt (key :: path) = inner.valueAt path := by
  rw [valueAt_cons _ _ hpath]
  cases hget : d.get? key with
  | none =>
    obtain rfl : Dict.empty = inner := by simpa [below, hget] using h
    simp
  | some w =>
    have hw : w.table? = some inner := by simpa [below, hget] using h
    simp [hw]

theorem below_eq_none (h : d.below key = none) : ∃ w, d.get? key = some w ∧ w.isTable = false := by
  cases hget : d.get? key with
  | none => simp [below, hget] at h
  | some w =>
    have hw : w.table? = none := by simpa [below, hget] using h
    exact ⟨w, rfl, by cases w <;> first | rfl | cases hw⟩

theorem isTable_of_below (h : d.below key = some inner) {w : Value} (hw : d.get? key = some w) :
    w.isTable = true := by
  cases w <;> first | rfl | simp [below, hw, Value.table?] at h

theorem writeAt_cons (shown : String) (d : Settings) (v : Value) (key : String) (hpath : path ≠ []) :
    writeAt shown d v (key :: path) = match d.below key with
      | none => (.error (.pathConflict shown key), d)
      | some inner => ((writeAt shown inner v path).1,
          d.insert key (.table (writeAt shown inner v path).2)) := by
  obtain ⟨next, rest, rfl⟩ := List.exists_cons_of_ne_nil hpath
  rw [writeAt]
  · cases hget : d.get? key with
    | none => simp [below, hget]
    | some w => cases w <;> simp [below, hget, Value.table?]
  · simp

/-- No name on the way, short of the last, has anything but a table. -/
def Open (d : Settings) (path : List String) : Prop :=
  ∀ q, q <+: path → q ≠ path → ∀ w, d.valueAt q = some w → w.isTable = true

theorem open_single (d : Settings) (key : String) : d.Open [key] := by
  intro q hq hne w hw
  rcases List.prefix_cons_iff.mp hq with rfl | ⟨rest, rfl, hrest⟩
  · cases hw
  · obtain rfl := List.prefix_nil.mp hrest
    exact absurd rfl hne

theorem open_empty (path : List String) : Open .empty path := by
  intro q _ _ w hw
  simp at hw

theorem open_cons_iff (hpath : path ≠ []) :
    d.Open (key :: path) ↔ ∃ inner, d.below key = some inner ∧ inner.Open path := by
  constructor
  · intro h
    cases hbelow : d.below key with
    | none =>
      obtain ⟨w, hw, hnot⟩ := below_eq_none hbelow
      have htable : w.isTable = true := h [key] (by simp) (by simpa using hpath.symm) w hw
      simp [hnot] at htable
    | some inner =>
      refine ⟨inner, rfl, ?_⟩
      intro q hq hne w hw
      have hq_ne : q ≠ [] := by
        rintro rfl
        cases hw
      apply h (key :: q) (by simpa using hq) (by simpa using hne)
      rw [valueAt_below hbelow hq_ne, hw]
  · rintro ⟨inner, hbelow, hopen⟩ q hq hne w hw
    rcases List.prefix_cons_iff.mp hq with rfl | ⟨rest, rfl, hrest⟩
    · cases hw
    · by_cases hrest_ne : rest = []
      · subst hrest_ne
        exact isTable_of_below hbelow hw
      · rw [valueAt_below hbelow hrest_ne] at hw
        exact hopen rest hrest (by simpa using hne) w hw

theorem writeAt_eq_ok_iff (shown : String) (d : Settings) (v : Value) (hpath : path ≠ []) :
    (writeAt shown d v path).1 = .ok () ↔ d.Open path := by
  induction path generalizing d with
  | nil => exact absurd rfl hpath
  | cons key path ih =>
    by_cases hlast : path = []
    · subst hlast
      exact iff_of_true rfl (open_single d key)
    · rw [writeAt_cons _ _ _ _ hlast, open_cons_iff hlast]
      cases hbelow : d.below key with
      | none => simp
      | some inner => simpa using ih inner hlast

/-! ## A walk that is stopped -/

/-- Something other than a table stands on the way, and its name is `key`. -/
def BlockedAt (d : Settings) (path : List String) (key : String) : Prop :=
  ∃ q rest w, path = q ++ key :: rest ∧ rest ≠ [] ∧ d.valueAt (q ++ [key]) = some w ∧ w.isTable = false

theorem BlockedAt.cons {name : String} (hbelow : d.below name = some inner)
    (h : inner.BlockedAt path key) : d.BlockedAt (name :: path) key := by
  obtain ⟨q, rest, w, rfl, hrest, hw, hnot⟩ := h
  refine ⟨name :: q, rest, w, rfl, hrest, ?_, hnot⟩
  rw [List.cons_append, valueAt_below hbelow (by simp), hw]

theorem writeAt_eq_error (hpath : path ≠ []) (hd : (Value.table d).ordered = .table d)
    (h : (writeAt shown d v path).1 = .error e) : (writeAt shown d v path).2 = d ∧
      ∃ key, d.BlockedAt path key ∧ e = .pathConflict shown key := by
  induction path generalizing d with
  | nil => exact absurd rfl hpath
  | cons key path ih =>
    by_cases hlast : path = []
    · subst hlast
      cases h
    · rw [writeAt_cons _ _ _ _ hlast] at h ⊢
      cases hbelow : d.below key with
      | none =>
        obtain ⟨w, hw, hnot⟩ := below_eq_none hbelow
        simp only [hbelow, Except.error.injEq] at h
        exact ⟨rfl, key, ⟨[], path, w, rfl, hlast, hw, hnot⟩, h.symm⟩
      | some inner =>
        simp only [hbelow] at h ⊢
        obtain ⟨hsorted, hmembers⟩ := Value.ordered_table_iff.mp hd
        cases hget : d.get? key with
        | none =>
          -- The table would be a new one, and every path is open in that.
          obtain rfl : Dict.empty = inner := by simpa [below, hget] using hbelow
          rw [(writeAt_eq_ok_iff shown .empty v hlast).mpr (open_empty path)] at h
          cases h
        | some w =>
          obtain rfl : w = .table inner := by
            cases w <;> simp_all [below, Value.table?]
          obtain ⟨hsame, name, hblocked, he⟩ := ih hlast (hmembers key _ hget) h
          rw [hsame, hsorted.insert_get? hget]
          exact ⟨rfl, name, hblocked.cons hbelow, he⟩

/-! ## A walk that arrives -/

theorem reach?_table (d : Settings) (hpath : path ≠ []) :
    (Value.table d).reach? path = d.valueAt path := by
  induction path generalizing d with
  | nil => exact absurd rfl hpath
  | cons key path ih =>
    by_cases hlast : path = []
    · subst hlast
      simp [Value.reach?, Value.member?, Value.table?]
    · rw [valueAt_cons _ _ hlast]
      apply Option.bind_congr
      intro w _
      cases w with
      | table inner => exact ih inner hlast
      | _ =>
        obtain ⟨next, rest, rfl⟩ := List.exists_cons_of_ne_nil hlast
        rfl

theorem valueAt_append (d : Settings) (hpath : path ≠ []) (rest : List String) :
    d.valueAt (path ++ rest) = (d.valueAt path).bind fun w => w.reach? rest := by
  rw [← reach?_table d hpath, ← Value.reach?_append, reach?_table d (by simp [hpath])]

theorem writeAt_ok (hpath : path ≠ []) (h : (writeAt shown d v path).1 = .ok ()) :
    (writeAt shown d v path).2.valueAt path = some v ∧
      ∀ q, Apart q path → (writeAt shown d v path).2.valueAt q = d.valueAt q := by
  induction path generalizing d with
  | nil => exact absurd rfl hpath
  | cons key path ih =>
    by_cases hlast : path = []
    · subst hlast
      refine ⟨by simp [writeAt], ?_⟩
      intro q hq
      cases q with
      | nil => exact absurd hq not_apart_nil_left
      | cons name q =>
        rcases apart_cons_iff.mp hq with hname | hq
        · exact valueAt_insert_ne hname v
        · exact absurd hq not_apart_nil_right
    · rw [writeAt_cons _ _ _ _ hlast] at h ⊢
      cases hbelow : d.below key with
      | none => simp [hbelow] at h
      | some inner =>
        simp only [hbelow] at h ⊢
        obtain ⟨hfound, hbeside⟩ := ih hlast h
        refine ⟨by rw [valueAt_insert_table _ _ _ hlast, hfound], ?_⟩
        intro q hq
        cases q with
        | nil => exact absurd hq not_apart_nil_left
        | cons name q =>
          by_cases hname : name = key
          · subst hname
            have hq : Apart q path := (apart_cons_iff.mp hq).resolve_left (by simp)
            have hq_ne : q ≠ [] := by
              rintro rfl
              exact not_apart_nil_left hq
            rw [valueAt_insert_table _ _ _ hq_ne, hbeside q hq, valueAt_below hbelow hq_ne]
          · exact valueAt_insert_ne hname _

/-! ## Well-formed paths -/

theorem check_eq_ok_iff : p.check = .ok () ↔ p.IsWellFormed := by
  rw [SettingsPath.check]
  split <;> simp_all

theorem get_of_wellFormed (d : Settings) (hp : p.IsWellFormed) : d.get p = .ok (d.valueAt p.segments) := by
  rw [get, check_eq_ok_iff.mpr hp]

theorem write_of_wellFormed (d : Settings) (hp : p.IsWellFormed) (v : Value) :
    d.write p v = writeAt p.dotted d v p.segments := by
  rw [write, check_eq_ok_iff.mpr hp]

theorem writeMerged_of_wellFormed (d : Settings) (hp : p.IsWellFormed) (v : Value) :
    d.writeMerged p v = d.write p (Value.layOn (d.valueAt p.segments) v) := by
  rw [writeMerged, get_of_wellFormed d hp]
  cases d.valueAt p.segments <;> rfl

theorem changed_eq_ok_iff {outcome : Except Fault Unit × Settings} :
    changed outcome = .ok d ↔ outcome = (.ok (), d) := by
  obtain ⟨_ | _, left⟩ := outcome <;> simp [changed]

theorem changed_eq_error_iff {outcome : Except Fault Unit × Settings} :
    changed outcome = .error e ↔ outcome.1 = .error e := by
  obtain ⟨_ | _, left⟩ := outcome <;> simp [changed]

theorem merge_ok {p : SettingsPath} (h : d.merge p v = .ok d') :
    d'.valueAt p.segments = some (Value.layOn (d.valueAt p.segments) v) ∧
      ∀ q, Apart q p.segments → d'.valueAt q = d.valueAt q := by
  have hmerged : d.writeMerged p v = (.ok (), d') := changed_eq_ok_iff.mp h
  have hp : p.IsWellFormed := by
    rw [← check_eq_ok_iff]
    cases hcheck : p.check with
    | ok _ => rfl
    | error _ => simp [writeMerged, get, hcheck] at hmerged
  rw [writeMerged_of_wellFormed d hp, write_of_wellFormed d hp] at hmerged
  have hlaws := writeAt_ok hp.1 (congrArg Prod.fst hmerged)
  rwa [hmerged] at hlaws

/-! ## The laws of a nested table -/

/-- The segments of `q` begin those of `p`, and do not end them. -/
def IsAbove (q p : SettingsPath) : Prop := q.segments <+: p.segments ∧ q.segments ≠ p.segments

/-- The tree `d'` is `d` with the value at the path: below the path there is what the value has, beside it
what there was, and on the way to it there are tables. -/
structure Puts (d : Settings) (p : SettingsPath) (v : Value) (d' : Settings) : Prop where
  below : ∀ q rest, q.IsWellFormed → q.segments = p.segments ++ rest → d'.get q = .ok (v.reach? rest)
  beside : ∀ q, q.IsWellFormed → Apart q.segments p.segments → d'.get q = d.get q
  above : ∀ q, q.IsWellFormed → IsAbove q p → ∃ inner, d'.get q = .ok (some (.table inner))

theorem Puts.of_valueAt (hp : p.IsWellFormed) (hfound : d'.valueAt p.segments = some v)
    (hbeside : ∀ q, Apart q p.segments → d'.valueAt q = d.valueAt q) : Puts d p v d' where
  below q rest hq hsegments := by
    rw [get_of_wellFormed d' hq, hsegments, valueAt_append d' hp.1, hfound]
    rfl
  beside q hq hapart := by
    rw [get_of_wellFormed d' hq, get_of_wellFormed d hq, hbeside _ hapart]
  above q hq habove := by
    obtain ⟨⟨rest, hsegments⟩, hne⟩ := habove
    rw [get_of_wellFormed d' hq]
    rw [← hsegments, valueAt_append d' hq.1] at hfound
    obtain ⟨w, hw, hreach⟩ := Option.bind_eq_some_iff.mp hfound
    cases rest with
    | nil => simp at hsegments; exact absurd hsegments hne
    | cons name rest =>
      cases w with
      | table inner => exact ⟨inner, congrArg Except.ok hw⟩
      | _ => simp [Value.reach?, Value.member?, Value.table?] at hreach

theorem open_iff_get (hp : p.IsWellFormed) : d.Open p.segments ↔
    ∀ q : SettingsPath, q.IsWellFormed → IsAbove q p → ∀ w, d.get q = .ok (some w) → w.isTable = true := by
  constructor
  · intro h q hq habove w hw
    rw [get_of_wellFormed d hq, Except.ok.injEq] at hw
    exact h q.segments habove.1 habove.2 w hw
  · intro h q hq hne w hw
    have hq_ne : q ≠ [] := by
      rintro rfl
      cases hw
    have hformed : (SettingsPath.ofSegments q).IsWellFormed :=
      ⟨hq_ne, fun s hs => hp.2 s (hq.subset hs)⟩
    apply h (.ofSegments q) hformed ⟨hq, hne⟩ w
    rw [get_of_wellFormed d hformed]
    exact congrArg Except.ok hw

/-- Paths address a tree of settings as one addresses a nested map. A value can be set at a path exactly
when every path on the way to it that has anything has a table; then it is there, and nothing beside it has
changed. Otherwise the tree is left as it was, and the fault names what is in the way. A merge sets the value
merged over what the path had, and only the segments of a path count, not how they were given. -/
theorem set_laws (hd : (Value.table d).ordered = .table d) (hp : p.IsWellFormed) (v : Value) :
    ((∃ d', d.set p v = .ok d') ↔ ∀ q : SettingsPath, q.IsWellFormed → IsAbove q p →
      ∀ w, d.get q = .ok (some w) → w.isTable = true) ∧
    (∀ d', d.set p v = .ok d' → d.write p v = (.ok (), d') ∧ Puts d p v d') ∧
    (∀ e, d.set p v = .error e → d.write p v = (.error e, d) ∧
      ∃ key, d.BlockedAt p.segments key ∧ e = .pathConflict p.dotted key) ∧
    (∃ old, d.get p = .ok old ∧ d.merge p v = d.set p (Value.layOn old v) ∧
      d.writeMerged p v = d.write p (Value.layOn old v)) ∧
    (∀ q : SettingsPath, q.segments = p.segments → d.write q v = d.write p v) := by
  have hwrite := write_of_wellFormed d hp v
  refine ⟨?_, ?_, ?_, ?_, ?_⟩
  · rw [← open_iff_get hp, ← writeAt_eq_ok_iff p.dotted d v hp.1, ← hwrite]
    simp only [set, changed_eq_ok_iff]
    exact ⟨fun ⟨d', h⟩ => congrArg Prod.fst h, fun h => ⟨_, Prod.ext h rfl⟩⟩
  · intro d' h
    have hput : d.write p v = (.ok (), d') := changed_eq_ok_iff.mp h
    have houtcome := hput
    rw [hwrite] at houtcome
    obtain ⟨hfound, hbeside⟩ := writeAt_ok hp.1 (congrArg Prod.fst houtcome)
    rw [houtcome] at hfound hbeside
    exact ⟨hput, .of_valueAt hp hfound hbeside⟩
  · intro e h
    have houtcome : (d.write p v).1 = .error e := changed_eq_error_iff.mp h
    have hstopped := writeAt_eq_error hp.1 hd (hwrite ▸ houtcome)
    rw [← hwrite] at hstopped
    exact ⟨Prod.ext houtcome hstopped.1, hstopped.2⟩
  · have hmerged := writeMerged_of_wellFormed d hp v
    exact ⟨_, get_of_wellFormed d hp, congrArg changed hmerged, hmerged⟩
  · intro q hq
    have hq_formed : q.IsWellFormed := by
      rwa [SettingsPath.IsWellFormed, hq]
    rw [hwrite, write_of_wellFormed d hq_formed, SettingsPath.dotted, SettingsPath.dotted, hq]

/-- Settings of one model, and a word where a table could be. -/
def pageSettings : Settings :=
  .ofList [("models", .table (.ofList [("page", .table (.ofList [("fields", .string "*")]))])),
    ("strategy", .string "convention")]

theorem set_laws_page :
    (Value.table pageSettings).ordered = .table pageSettings ∧
    (∃ d', pageSettings.set (.ofDots "models.page.title") (.string "Page") = .ok d' ∧
      Puts pageSettings (.ofDots "models.page.title") (.string "Page") d') ∧
    pageSettings.write (.ofDots "strategy.name.length") .null =
      (.error (.pathConflict "strategy.name.length" "strategy"), pageSettings) := by
  have hd : (Value.table pageSettings).ordered = .table pageSettings := by rfl
  have htitle : (SettingsPath.ofDots "models.page.title").IsWellFormed := by decide +kernel
  have hlength : (SettingsPath.ofDots "strategy.name.length").IsWellFormed := by decide +kernel
  obtain ⟨-, hputs, -⟩ := set_laws hd htitle (.string "Page")
  obtain ⟨-, -, hstays, -⟩ := set_laws hd hlength .null
  refine ⟨hd, ?_, (hstays _ rfl).1⟩
  have hset : ∃ d', pageSettings.set (.ofDots "models.page.title") (.string "Page") = .ok d' := ⟨_, rfl⟩
  obtain ⟨d', h⟩ := hset
  exact ⟨d', h, (hputs d' h).2⟩

end Settings
end ClassSchema
