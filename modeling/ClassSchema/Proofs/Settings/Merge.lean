import ClassSchema.Proofs.Settings.Tree

/-!
# What a deep merge leaves at a path

The incoming value decides at every path that it reaches, and where two tables meet there, both have a say.
Past the last thing it reaches, it closes the way if that is no table, and leaves what was there if it is one.
-/

namespace ClassSchema.Value

variable {x y v w : Value} {d e : Dict Value} {path : List String}

/-- Something other than a table stands on the way, before the path ends. -/
def Obstructs (v : Value) (path : List String) : Prop :=
  ∃ q w, q <+: path ∧ q ≠ path ∧ v.reach? q = some w ∧ w.isTable = false

theorem member?_of_not_table (h : v.isTable = false) (key : String) : v.member? key = none := by
  cases v with
  | table d => cases h
  | _ => rfl

theorem reach?_cons_of_member? {key : String} (h : v.member? key = none) (path : List String) :
    v.reach? (key :: path) = none := by
  rw [reach?, h]
  rfl

theorem layOn_of_not_table (old : Option Value) (h : v.isTable = false) : layOn old v = v := by
  cases old with
  | none => rfl
  | some old => exact merge_of_not_table (.inr h)

theorem layOn_table_of_not_table {old : Option Value} (h : ∀ o ∈ old, o.isTable = false) (e : Dict Value) :
    layOn old (.table e) = .table e := by
  cases old with
  | none => rfl
  | some o => exact merge_of_not_table (.inl (h o rfl))

theorem ordered_of_reach? (hv : v.ordered = v) (h : v.reach? path = some w) : w.ordered = w := by
  induction path generalizing v with
  | nil =>
    obtain rfl : v = w := Option.some.inj h
    exact hv
  | cons key path ih =>
    obtain ⟨u, hu, hreach⟩ := Option.bind_eq_some_iff.mp h
    cases v with
    | table d => exact ih ((ordered_table_iff.mp hv).2 key u hu) hreach
    | _ => cases hu

theorem exists_lost (h : v.reach? path = none) : ∃ q key rest w, path = q ++ key :: rest ∧
    v.reach? q = some w ∧ w.member? key = none := by
  induction path generalizing v with
  | nil => cases h
  | cons key path ih =>
    cases hmember : v.member? key with
    | none => exact ⟨[], key, path, v, rfl, rfl, hmember⟩
    | some u =>
      rw [reach?, hmember] at h
      obtain ⟨q, name, rest, w, rfl, hq, hlost⟩ := ih h
      refine ⟨key :: q, name, rest, w, rfl, ?_, hlost⟩
      rw [reach?, hmember]
      exact hq

theorem member?_merge (x : Value) (he : e.Sorted) (key : String) : (x.merge (.table e)).member? key =
    ((e.get? key).map (layOn (x.member? key))).or (x.member? key) := by
  cases x with
  | table d => exact get?_deepMerge d he key
  | _ =>
    show e.get? key = ((e.get? key).map (layOn none)).or none
    cases e.get? key <;> rfl

theorem member?_layOn_of_none (he : e.Sorted) {key : String} (h : e.get? key = none) (old : Option Value) :
    (layOn old (.table e)).member? key = old.bind fun o => o.member? key := by
  cases old with
  | none => exact h
  | some o =>
    rw [layOn_some, member?_merge o he, h]
    rfl

theorem reach?_merge_of_some (x : Value) (hy : y.ordered = y) (h : y.reach? path = some v) :
    (x.merge y).reach? path = some (layOn (x.reach? path) v) := by
  induction path generalizing x y with
  | nil =>
    obtain rfl : y = v := Option.some.inj h
    rfl
  | cons key path ih =>
    obtain ⟨w, hw, hreach⟩ := Option.bind_eq_some_iff.mp h
    cases y with
    | table e =>
      obtain ⟨he, hmembers⟩ := ordered_table_iff.mp hy
      have hget : e.get? key = some w := hw
      rw [reach?, member?_merge x he, hget, reach?]
      cases x.member? key with
      | none => exact hreach
      | some o => exact ih o (hmembers key w hget) hreach
    | _ => cases h

/-- A way that the incoming value closes is closed after the merge. -/
theorem reach?_merge_of_obstructs (x : Value) (hy : y.ordered = y) (h : y.Obstructs path) :
    (x.merge y).reach? path = none := by
  obtain ⟨q, w, ⟨rest, rfl⟩, hne, hq, hw⟩ := h
  cases rest with
  | nil => simp at hne
  | cons key rest =>
    rw [reach?_append, reach?_merge_of_some x hy hq, layOn_of_not_table _ hw, Option.bind_some,
      reach?_cons_of_member? (member?_of_not_table hw key)]

/-- Where the incoming value has nothing and closes nothing, all is as it was. -/
theorem reach?_merge_of_open (x : Value) (hy : y.ordered = y) (hnone : y.reach? path = none)
    (hopen : ¬ y.Obstructs path) : (x.merge y).reach? path = x.reach? path := by
  obtain ⟨q, key, rest, w, rfl, hq, hlost⟩ := exists_lost hnone
  cases w with
  | table e =>
    -- The table in which the way is lost has no such member, so only the one below it may.
    have he := (ordered_table_iff.mp (ordered_of_reach? hy hq)).1
    rw [reach?_append, reach?_append, reach?_merge_of_some x hy hq, Option.bind_some, reach?,
      member?_layOn_of_none he hlost, Option.bind_assoc]
    rfl
  | _ => exact absurd ⟨q, _, List.prefix_append _ _, by simp, hq, rfl⟩ hopen

/-- What a value has at a path once another was laid over it. -/
structure LaidOver (x y m : Value) (path : List String) : Prop where
  replaced : ∀ v, y.reach? path = some v → v.isTable = false → m.reach? path = some v
  merged : ∀ d e, x.reach? path = some (.table d) → y.reach? path = some (.table e) →
    m.reach? path = some ((table d).merge (.table e))
  brought : ∀ e, y.reach? path = some (.table e) → (∀ v ∈ x.reach? path, v.isTable = false) →
    m.reach? path = some (.table e)
  closed : y.reach? path = none → y.Obstructs path → m.reach? path = none
  kept : y.reach? path = none → ¬ y.Obstructs path → m.reach? path = x.reach? path

theorem laidOver_merge (x : Value) (hy : y.ordered = y) (path : List String) :
    LaidOver x y (x.merge y) path where
  replaced v hv htable := by rw [reach?_merge_of_some x hy hv, layOn_of_not_table _ htable]
  merged d e hd he := by rw [reach?_merge_of_some x hy he, hd, layOn_some]
  brought e he hx := by rw [reach?_merge_of_some x hy he, layOn_table_of_not_table hx]
  closed _ h := reach?_merge_of_obstructs x hy h
  kept := reach?_merge_of_open x hy

theorem merge_merge_right (hx : x.ordered = x) (hy : y.ordered = y) :
    (x.merge y).merge y = x.merge y := by
  have hm := ordered_merge hx hy
  apply ext_seen (ordered_merge hm hy) hm
  intro path
  rw [seen_merge _ hy, seen_merge _ hy]
  exact seenOver_again path (x.seen path) y

/-- A deep merge is biased to the right at every path: what comes in is there afterwards, a table merged with
the one that it meets, and else nothing changes but what was below a path that something other than a table
takes up. So what was merged in once changes nothing any more. -/
theorem merge_rightBiased (hx : x.ordered = x) (hy : y.ordered = y) :
    (∀ path, LaidOver x y (x.merge y) path) ∧ (x.merge y).merge y = x.merge y :=
  ⟨laidOver_merge x hy, merge_merge_right hx hy⟩

/-- Settings of a fragment, with a table of fields. -/
def fragmentSettings : Value :=
  .ofPairs [("page", .ofPairs [("fields", .ofPairs [("title", .string "String")]),
    ("operations", .strings ["read"])])]

/-- Explicit settings of the same model, which name no fields of their own. -/
def explicitSettings : Value :=
  .ofPairs [("page", .ofPairs [("fields", .string "*"), ("typeName", .string "Doc")])]

theorem merge_rightBiased_page :
    fragmentSettings.ordered = fragmentSettings ∧ explicitSettings.ordered = explicitSettings ∧
    (fragmentSettings.merge explicitSettings).reach? ["page", "fields"] = some (.string "*") ∧
    fragmentSettings.reach? ["page", "fields", "title"] = some (.string "String") ∧
    (fragmentSettings.merge explicitSettings).reach? ["page", "fields", "title"] = none ∧
    (fragmentSettings.merge explicitSettings).merge explicitSettings =
      fragmentSettings.merge explicitSettings := by
  have hfragment : fragmentSettings.ordered = fragmentSettings := by rfl
  have hexplicit : explicitSettings.ordered = explicitSettings := by rfl
  obtain ⟨hlaid, hagain⟩ := merge_rightBiased hfragment hexplicit
  have hobstructs : explicitSettings.Obstructs ["page", "fields", "title"] :=
    ⟨["page", "fields"], .string "*", ⟨["title"], rfl⟩, by decide, rfl, rfl⟩
  exact ⟨hfragment, hexplicit, (hlaid _).replaced _ rfl rfl, rfl, (hlaid _).closed rfl hobstructs, hagain⟩

end ClassSchema.Value
