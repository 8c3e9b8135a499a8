import ClassSchema.Proofs.Value.Text
import ClassSchema.Schema.Definition

/-!
# Canonical texts

The canonical text of a value is its compact text with every table in name order, the text that a
signature is taken over. It tells the members of a table apart, whatever order they were given in.
-/

namespace ClassSchema

theorem map_eq_map_of {α β γ : Type} {f : α → β} {g : α → γ} {xs ys : List α}
    (h : xs.map f = ys.map f) (hg : ∀ x ∈ xs, ∀ y ∈ ys, f x = f y → g x = g y) :
    xs.map g = ys.map g := by
  induction xs generalizing ys with
  | nil =>
    have hys : ys = [] := by simpa using h
    rw [hys]
  | cons x xs ih =>
    cases ys with
    | nil => cases h
    | cons y ys =>
      obtain ⟨hxy, hrest⟩ := List.cons.inj h
      have htail := ih hrest fun x hx y hy =>
        hg x (List.mem_cons_of_mem _ hx) y (List.mem_cons_of_mem _ hy)
      have hhead := hg x List.mem_cons_self y List.mem_cons_self hxy
      rw [List.map_cons, List.map_cons, hhead, htail]

namespace Value

def canonical (v : Value) : List Char := v.ordered.chars

theorem orderedItems_eq_map (vs : List Value) : orderedItems vs = vs.map ordered := by
  induction vs with
  | nil => rfl
  | cons v vs ih => rw [orderedItems, ih, List.map_cons]

theorem orderedEntries_eq_map (es : List (String × Value)) :
    orderedEntries es = es.map fun e => (e.1, e.2.ordered) := by
  induction es with
  | nil => rfl
  | cons e es ih => rw [orderedEntries, ih, List.map_cons]

theorem string_inj_of_canonical {s t : String} (h : (string s).canonical = (string t).canonical) :
    s = t := String.toList_inj.mp (quoted_inj h)

theorem map_canonical_of_list {vs ws : List Value} (h : (list vs).canonical = (list ws).canonical) :
    vs.map canonical = ws.map canonical := by
  have hmap := map_chars_of_list h
  rw [orderedItems_eq_map, orderedItems_eq_map, List.map_map, List.map_map] at hmap
  exact hmap

theorem get?_canonical_of_entries {es fs : List (String × Value)}
    (h : (table ⟨es⟩).canonical = (table ⟨fs⟩).canonical) (key : String) :
    ((Dict.ofList es).get? key).map canonical = ((Dict.ofList fs).get? key).map canonical := by
  have hget (gs : List (String × Value)) : ((Dict.ofList gs).get? key).map canonical =
      Dict.lookup key ((Dict.ofList (orderedEntries gs)).map chars).entries := by
    show _ = ((Dict.ofList (orderedEntries gs)).map chars).get? key
    rw [Dict.get?_map, orderedEntries_eq_map, Dict.get?_ofList_map, Option.map_map]
    rfl
  rw [hget, hget, map_chars_of_table h]

theorem get?_canonical_of_pairs {ps qs : List (String × Value)}
    (h : (ofPairs ps).canonical = (ofPairs qs).canonical) (key : String) :
    ((Dict.ofList ps).get? key).map canonical = ((Dict.ofList qs).get? key).map canonical := by
  have hget := @get?_canonical_of_entries (Dict.ofList ps).entries (Dict.ofList qs).entries h key
  rwa [(Dict.sorted_ofList ps).ofList_entries, (Dict.sorted_ofList qs).ofList_entries] at hget

theorem map_canonical_of_table {d e : Dict Value} (hd : d.Sorted) (he : e.Sorted)
    (h : (table d).canonical = (table e).canonical) : d.map canonical = e.map canonical := by
  have hordered (f : Dict Value) (hf : f.Sorted) :
      (Dict.ofList (orderedEntries f.entries)).map chars = f.map canonical := by
    have hmap : orderedEntries f.entries = (f.map ordered).entries := orderedEntries_eq_map _
    rw [hmap, (hf.map ordered).ofList_entries]
    simp [Dict.map, canonical]
  have hentries := map_chars_of_table h
  rw [hordered d hd, hordered e he] at hentries
  obtain ⟨ds⟩ := d
  obtain ⟨es⟩ := e
  exact congrArg Dict.mk hentries

theorem canonical_of_ordered {v : Value} (h : v.ordered = v) : v.canonical = v.chars := by
  rw [canonical, h]

theorem map_canonical_of_any {vs ws : List Value}
    (h : (if vs ≠ [] then some (list vs) else none).map canonical =
      (if ws ≠ [] then some (list ws) else none).map canonical) :
    vs.map canonical = ws.map canonical := by
  by_cases hvs : vs = []
  · by_cases hws : ws = []
    · rw [hvs, hws]
    · simp [hvs, hws] at h
  · by_cases hws : ws = []
    · simp [hvs, hws] at h
    · rw [if_pos hvs, if_pos hws] at h
      exact map_canonical_of_list (Option.some.inj h)

theorem strings_inj_of_canonical {s t : List String}
    (h : (s.map string).map canonical = (t.map string).map canonical) : s = t := by
  rw [List.map_map, List.map_map] at h
  have hmap := map_eq_map_of (g := id) h fun _ _ _ _ hxy => string_inj_of_canonical hxy
  rwa [List.map_id, List.map_id] at hmap

theorem string?_inj_of_canonical {s t : Option String}
    (h : (s.map string).map canonical = (t.map string).map canonical) : s = t := by
  cases s with
  | none =>
    cases t with
    | none => rfl
    | some t => cases h
  | some s =>
    cases t with
    | none => cases h
    | some t => rw [string_inj_of_canonical (Option.some.inj h)]

end Value

variable (key name : String)

theorem get?_single (v : Value) :
    (Dict.ofList [(name, v)]).get? key = if key = name then some v else none := by
  rw [Dict.get?_ofList]
  simp [Dict.lookup, eq_comm]

theorem get?_pair (other : String) (v w : Value) : (Dict.ofList [(name, v), (other, w)]).get? key =
    if key = other then some w else if key = name then some v else none := by
  rw [Dict.get?_ofList]
  simp [Dict.lookup, eq_comm]

theorem get?_entryIfSome (v : Option Value) :
    (Dict.ofList (entryIfSome name v)).get? key = if key = name then v else none := by
  cases v with
  | none => simp [entryIfSome, Dict.ofList, Dict.insertAll]
  | some v => exact get?_single key name v

theorem get?_entryIfAny (items : List Value) : (Dict.ofList (entryIfAny name items)).get? key =
    if key = name ∧ items ≠ [] then some (.list items) else none := by
  cases items with
  | nil => simp [entryIfAny, Dict.ofList, Dict.insertAll]
  | cons v vs =>
    rw [entryIfAny, get?_single]
    · simp
    · simp

theorem get?_descriptionEntry (description : Option String) :
    (Dict.ofList (descriptionEntry description)).get? key =
      if key = "description" then description.map .string else none :=
  get?_entryIfSome key "description" _

end ClassSchema
