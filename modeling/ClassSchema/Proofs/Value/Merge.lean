import ClassSchema.Proofs.Dict
import ClassSchema.Proofs.Value.Canonical

/-!
# The deep merge, path by path

A value says something about a path, or nothing. What a merge has at a path is what the incoming value says
about it, and what was there before where it says nothing. Values in name order are equal if they have the
same everywhere, so chains of merges are compared one path at a time.
-/

namespace ClassSchema

namespace Value

variable {x y z : Value} {d e : Dict Value} {old : Option Value} {vs : List Value}

theorem sizeOf_lt_of_member? {key : String} (h : x.member? key = some y) : sizeOf y < sizeOf x := by
  cases x with
  | table d =>
    obtain ⟨entries⟩ := d
    have hmem : (key, y) ∈ entries := Dict.mem_of_lookup h
    have hentry := List.sizeOf_lt_of_mem hmem
    simp only [Prod.mk.sizeOf_spec] at hentry
    simp only [table.sizeOf_spec, Dict.mk.sizeOf_spec]
    omega
  | _ => cases h

/-- Proves something of a value from its members. -/
theorem member_induction {P : Value → Prop}
    (step : ∀ v, (∀ key w, v.member? key = some w → P w) → P v) (v : Value) : P v := by
  apply step
  intro key w hw
  exact member_induction step w
termination_by sizeOf v
decreasing_by exact sizeOf_lt_of_member? hw

/-! ## Name order -/

theorem ordered_table_iff : (table d).ordered = table d ↔
    d.Sorted ∧ ∀ key v, d.get? key = some v → v.ordered = v := by
  have hmap : (table d).ordered = table (.ofList (d.map ordered).entries) :=
    congrArg (fun es => table (.ofList es)) (orderedEntries_eq_map d.entries)
  rw [hmap, table.injEq]
  constructor
  · intro h
    have hsorted : d.Sorted := h ▸ Dict.sorted_ofList _
    refine ⟨hsorted, ?_⟩
    intro key v hv
    rw [(hsorted.map ordered).ofList_entries] at h
    have hget := Dict.get?_map d ordered key
    rw [h, hv] at hget
    exact (Option.some.inj hget).symm
  · rintro ⟨hsorted, hmembers⟩
    rw [(hsorted.map ordered).ofList_entries]
    apply (hsorted.map ordered).ext hsorted
    intro key
    rw [Dict.get?_map]
    cases hv : d.get? key with
    | none => rfl
    | some v => exact congrArg some (hmembers key v hv)

mutual

theorem ordered_ordered (v : Value) : v.ordered.ordered = v.ordered := by
  cases v with
  | list items =>
    rw [ordered, ordered, orderedItems_eq_map]
    congr 1
    exact (List.map_congr_left (ordered_of_mem_items items)).trans (List.map_id _)
  | table d =>
    obtain ⟨entries⟩ := d
    apply ordered_table_iff.mpr
    refine ⟨Dict.sorted_ofList _, ?_⟩
    intro key w hw
    rw [Dict.get?_ofList] at hw
    exact ordered_of_mem_entries entries _ (List.mem_reverse.mp (Dict.mem_of_lookup hw))
  | _ => rfl

theorem ordered_of_mem_items (vs : List Value) : ∀ v ∈ orderedItems vs, v.ordered = v := by
  cases vs with
  | nil => simp [orderedItems]
  | cons v vs => exact List.forall_mem_cons.mpr ⟨ordered_ordered v, ordered_of_mem_items vs⟩

theorem ordered_of_mem_entries (es : List (String × Value)) :
    ∀ e ∈ orderedEntries es, e.2.ordered = e.2 := by
  cases es with
  | nil => simp [orderedEntries]
  | cons e es => exact List.forall_mem_cons.mpr ⟨ordered_ordered e.2, ordered_of_mem_entries es⟩

end

theorem ordered_of_asTable (h : asTable x = some d) : (table d).ordered = table d := by
  rw [asTable] at h
  cases hx : x.ordered with
  | table fields =>
    rw [hx] at h
    obtain rfl := Option.some.inj h
    rw [← hx, ordered_ordered]
  | _ =>
    rw [hx] at h
    cases h

/-! ## One merge -/

/-- A value laid over what is there, if anything is. -/
def layOn (old : Option Value) (v : Value) : Value := old.elim v (·.merge v)

@[simp] theorem layOn_none (v : Value) : layOn none v = v := rfl

@[simp] theorem layOn_some (old v : Value) : layOn (some old) v = old.merge v := rfl

theorem mergeEntries_cons (d : Dict Value) (key : String) (v : Value) (es : List (String × Value)) :
    mergeEntries d ((key, v) :: es) = mergeEntries (d.insert key (layOn (d.get? key) v)) es := by
  rw [mergeEntries]
  cases d.get? key <;> rfl

theorem get?_mergeEntries (d : Dict Value) {es : List (String × Value)} (hes : Dict.Sorted ⟨es⟩)
    (key : String) : (mergeEntries d es).get? key =
      ((Dict.lookup key es).map (layOn (d.get? key))).or (d.get? key) := by
  induction es generalizing d with
  | nil => rfl
  | cons e es ih =>
    obtain ⟨name, v⟩ := e
    obtain ⟨hlt, hrest⟩ := List.pairwise_cons.mp hes
    rw [mergeEntries_cons, ih _ hrest, Dict.get?_insert, Dict.lookup]
    by_cases hname : name = key
    · -- Later entries have later names.
      have hnone : Dict.lookup key es = none := by
        by_contra hsome
        obtain ⟨w, hw⟩ := Option.ne_none_iff_exists'.mp hsome
        exact absurd (hlt _ (Dict.mem_of_lookup hw)) (by simp [hname])
      simp [hname, hnone]
    · simp [hname, Ne.symm hname]

theorem get?_deepMerge (d : Dict Value) (he : e.Sorted) (key : String) :
    (d.deepMerge e).get? key = ((e.get? key).map (layOn (d.get? key))).or (d.get? key) :=
  get?_mergeEntries d he key

theorem sorted_deepMerge (hd : d.Sorted) (e : Dict Value) : (d.deepMerge e).Sorted := by
  obtain ⟨es⟩ := e
  show (mergeEntries d es).Sorted
  induction es generalizing d with
  | nil => exact hd
  | cons e es ih =>
    rw [mergeEntries_cons]
    exact ih (hd.insert _ _)

theorem merge_table (d e : Dict Value) : (table d).merge (table e) = table (d.deepMerge e) := rfl

theorem merge_of_not_table (h : x.isTable = false ∨ y.isTable = false) : x.merge y = y := by
  cases x <;> cases y <;> simp_all [merge, isTable]

theorem ordered_merge (hx : x.ordered = x) (hy : y.ordered = y) : (x.merge y).ordered = x.merge y := by
  induction y using member_induction generalizing x with
  | step y ih =>
    cases y with
    | table e =>
      cases x with
      | table d =>
        obtain ⟨hd, hdmembers⟩ := ordered_table_iff.mp hx
        obtain ⟨he, hemembers⟩ := ordered_table_iff.mp hy
        rw [merge_table, ordered_table_iff]
        refine ⟨sorted_deepMerge hd e, ?_⟩
        intro key v hv
        rw [get?_deepMerge d he] at hv
        cases hnew : e.get? key with
        | none => exact hdmembers key v (by simpa [hnew] using hv)
        | some w =>
          have hw := hemembers key w hnew
          cases hold : d.get? key with
          | none =>
            obtain rfl : w = v := by simpa [hnew, hold] using hv
            exact hw
          | some o =>
            obtain rfl : o.merge w = v := by simpa [hnew, hold] using hv
            exact ih key w hnew (hdmembers key o hold) hw
      | _ => exact hy
    | _ => cases x <;> exact hy

/-! ## What a value says about a path -/

/-- What a value says about a path: nothing if it stops at a table without the next name, that nothing is
there if something else than a table is in the way, and otherwise what is there, a table without its
members. -/
def said : Value → List String → Option (Option Value)
  | .table _, [] => some (some (.table .empty))
  | .table d, key :: path => (d.get? key).bind fun v => said v path
  | v, [] => some (some v)
  | _, _ :: _ => some none

/-- What a value has at a path, a table without its members. -/
def seen (v : Value) (path : List String) : Option Value := (v.said path).join

theorem seen_merge (x : Value) (hy : y.ordered = y) (path : List String) :
    (x.merge y).seen path = (y.said path).getD (x.seen path) := by
  induction path generalizing x y with
  | nil => cases x <;> cases y <;> rfl
  | cons key path ih =>
    cases y with
    | table e =>
      obtain ⟨he, hemembers⟩ := ordered_table_iff.mp hy
      cases x with
      | table d =>
        rw [merge_table, seen, seen, said, said, said, get?_deepMerge d he]
        cases hnew : e.get? key with
        | none => simp
        | some w =>
          have hw := hemembers key w hnew
          cases hold : d.get? key with
          | none => cases hsaid : w.said path <;> simp [hsaid]
          | some o =>
            have hmember := ih o hw
            simp only [seen] at hmember
            simpa using hmember
      | _ =>
        rw [merge_of_not_table (.inl rfl)]
        show ((table e).said _).join = ((table e).said _).getD none
        cases (table e).said (key :: path) <;> rfl
    | _ => cases x <;> rfl

theorem ext_seen (hx : x.ordered = x) (hy : y.ordered = y) (h : ∀ path, x.seen path = y.seen path) :
    x = y := by
  induction x using member_induction generalizing y with
  | step x ih =>
    have hroot := h []
    cases x with
    | table d =>
      cases y with
      | table e =>
        obtain ⟨hd, hdmembers⟩ := ordered_table_iff.mp hx
        obtain ⟨he, hemembers⟩ := ordered_table_iff.mp hy
        congr 1
        apply hd.ext he
        intro key
        have hkey (path : List String) : ((d.get? key).bind (said · path)).join =
            ((e.get? key).bind (said · path)).join := h (key :: path)
        cases hv : d.get? key with
        | none =>
          cases hw : e.get? key with
          | none => rfl
          | some w =>
            have hnil := hkey []
            rw [hv, hw] at hnil
            cases w <;> cases hnil
        | some v =>
          cases hw : e.get? key with
          | none =>
            have hnil := hkey []
            rw [hv, hw] at hnil
            cases v <;> cases hnil
          | some w =>
            congr 1
            apply ih key v hv (hdmembers key v hv) (hemembers key w hw)
            intro path
            have hpath := hkey path
            rwa [hv, hw] at hpath
      | _ => cases hroot
    | _ =>
      cases y with
      | table e => cases hroot
      | _ => exact Option.some.inj hroot

/-! ## Many merges -/

/-- Values laid over each other, the first at the bottom. -/
def layered : List Value → Option Value
  | [] => none
  | v :: vs => some (vs.foldl merge v)

theorem layered_layOn (old : Option Value) (v : Value) (vs : List Value) :
    layered (layOn old v :: vs) = layered (old.toList ++ v :: vs) := by
  cases old <;> rfl

/-- What is seen at a path once a value is laid over what was. -/
def seenOver (path : List String) (old : Option Value) (v : Value) : Option Value :=
  (v.said path).getD old

theorem seenOver_again (path : List String) (old : Option Value) (v : Value) :
    seenOver path (seenOver path old v) v = seenOver path old v := by
  cases h : v.said path <;> simp [seenOver, h]

theorem foldl_seenOver_replicate (path : List String) (n : Nat) (old : Option Value) (v : Value) :
    (List.replicate n v).foldl (seenOver path) old = if n = 0 then old else seenOver path old v := by
  induction n generalizing old with
  | zero => rfl
  | succ n ih =>
    rw [List.replicate_succ, List.foldl_cons, ih]
    split
    · simp
    · simp [seenOver_again]

theorem seen_foldl_merge (path : List String) (x : Value) (hvs : ∀ v ∈ vs, v.ordered = v) :
    (vs.foldl merge x).seen path = vs.foldl (seenOver path) (x.seen path) := by
  induction vs generalizing x with
  | nil => rfl
  | cons v vs ih =>
    obtain ⟨hv, hrest⟩ := List.forall_mem_cons.mp hvs
    rw [List.foldl_cons, List.foldl_cons, ih _ hrest, seen_merge x hv]
    rfl

theorem ordered_foldl_merge (hx : x.ordered = x) (hvs : ∀ v ∈ vs, v.ordered = v) :
    (vs.foldl merge x).ordered = vs.foldl merge x := by
  induction vs generalizing x with
  | nil => exact hx
  | cons v vs ih =>
    obtain ⟨hv, hrest⟩ := List.forall_mem_cons.mp hvs
    exact ih (ordered_merge hx hv) hrest

theorem seenOver_bottom (path : List String) (v : Value) : seenOver path none v = v.seen path := by
  cases h : v.said path <;> simp [seenOver, seen, h]

theorem seen_layered (path : List String) (hvs : ∀ v ∈ vs, v.ordered = v) :
    (layered vs).bind (seen · path) = vs.foldl (seenOver path) none := by
  cases vs with
  | nil => rfl
  | cons v vs =>
    rw [List.foldl_cons, seenOver_bottom, ← seen_foldl_merge path v (List.forall_mem_cons.mp hvs).2]
    rfl

theorem ordered_layered (hvs : ∀ v ∈ vs, v.ordered = v) : ∀ w ∈ layered vs, w.ordered = w := by
  cases vs with
  | nil =>
    intro w hw
    cases hw
  | cons v vs =>
    obtain ⟨hv, hrest⟩ := List.forall_mem_cons.mp hvs
    intro w hw
    obtain rfl := Option.some.inj hw
    exact ordered_foldl_merge hv hrest

/-- Layers that show the same at every path are the same together. -/
theorem layered_congr {ws : List Value} (hvs : ∀ v ∈ vs, v.ordered = v)
    (hws : ∀ w ∈ ws, w.ordered = w)
    (h : ∀ path, vs.foldl (seenOver path) none = ws.foldl (seenOver path) none) :
    layered vs = layered ws := by
  have hseen (path : List String) :
      (layered vs).bind (seen · path) = (layered ws).bind (seen · path) := by
    rw [seen_layered path hvs, seen_layered path hws, h]
  have hv := ordered_layered hvs
  have hw := ordered_layered hws
  cases hvs : layered vs with
  | none =>
    cases hws : layered ws with
    | none => rfl
    | some w =>
      have hroot := hseen []
      rw [hvs, hws] at hroot
      cases w <;> cases hroot
  | some v =>
    cases hws : layered ws with
    | none =>
      have hroot := hseen []
      rw [hvs, hws] at hroot
      cases v <;> cases hroot
    | some w =>
      rw [hvs] at hseen hv
      rw [hws] at hseen hw
      exact congrArg some (ext_seen (hv v rfl) (hw w rfl) hseen)

theorem layered_again (hx : ∀ v ∈ old, v.ordered = v) (hvs : ∀ v ∈ vs, v.ordered = v) :
    layered (old.toList ++ (vs ++ old.toList)) = layered (vs ++ old.toList) := by
  have hold : ∀ v ∈ old.toList, v.ordered = v := by simpa using hx
  have htop := List.forall_mem_append.mpr ⟨hvs, hold⟩
  apply layered_congr (List.forall_mem_append.mpr ⟨hold, htop⟩) htop
  intro path
  cases old with
  | none => rfl
  | some x =>
    simp only [Option.toList_some, List.foldl_append, List.foldl_cons, List.foldl_nil]
    -- Where the top layer says nothing, it says nothing at the bottom either.
    cases hsaid : x.said path <;> simp [seenOver, hsaid]

end Value

end ClassSchema
