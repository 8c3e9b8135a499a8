import ClassSchema.Dict
import Mathlib.Data.List.Nodup
import Mathlib.Data.String.Basic

/-!
# Sorted tables

Every operation of a table keeps its names in order. In a sorted table the entries and the look-ups say
the same.
-/

namespace ClassSchema.Dict

variable {α β : Type}

theorem lookup_append (key : String) (l m : List (String × α)) :
    lookup key (l ++ m) = (lookup key l).or (lookup key m) := by
  induction l with
  | nil => simp [lookup]
  | cons e l ih =>
    obtain ⟨name, value⟩ := e
    by_cases h : name = key
    · simp [lookup, h]
    · simp [lookup, h, ih]

theorem mem_of_lookup {key : String} {value : α} {l : List (String × α)}
    (h : lookup key l = some value) : (key, value) ∈ l := by
  induction l with
  | nil => cases h
  | cons e l ih =>
    obtain ⟨name, old⟩ := e
    by_cases hn : name = key
    · have hv : old = value := by simpa [lookup, hn] using h
      simp [hn, hv]
    · exact List.mem_cons_of_mem _ (ih (by simpa [lookup, hn] using h))

theorem lookup_map (key : String) (f : α → β) (l : List (String × α)) :
    lookup key (l.map fun e => (e.1, f e.2)) = (lookup key l).map f := by
  induction l with
  | nil => rfl
  | cons e l ih =>
    by_cases h : e.1 = key
    · simp [lookup, h]
    · simp [lookup, h, ih]

/-- The names stand in order, each once. -/
def Sorted (d : Dict α) : Prop := d.entries.Pairwise fun a b => a.1 < b.1

theorem sorted_empty : (empty : Dict α).Sorted := List.Pairwise.nil

private theorem mem_place {key : String} {value : α} {l : List (String × α)} {e : String × α}
    (h : e ∈ place key value l) : e = (key, value) ∨ e ∈ l := by
  induction l with
  | nil => exact .inl (List.mem_singleton.mp h)
  | cons a l ih =>
    rw [place] at h
    split at h
    · rcases List.mem_cons.mp h with he | he
      · exact .inl he
      · exact .inr (List.mem_cons_of_mem _ he)
    · split at h
      · exact List.mem_cons.mp h
      · rcases List.mem_cons.mp h with he | he
        · exact .inr (he ▸ List.mem_cons_self)
        · exact (ih he).imp_right (List.mem_cons_of_mem _)

theorem Sorted.insert {d : Dict α} (h : d.Sorted) (key : String) (value : α) :
    (d.insert key value).Sorted := by
  obtain ⟨l⟩ := d
  show (place key value l).Pairwise _
  have hl : l.Pairwise fun a b => a.1 < b.1 := h
  clear h
  induction l with
  | nil => exact List.pairwise_singleton _ _
  | cons a l ih =>
    obtain ⟨ha, hl⟩ := List.pairwise_cons.mp hl
    rw [place]
    split
    · next heq => exact List.pairwise_cons.mpr ⟨fun b hb => heq ▸ ha b hb, hl⟩
    · next hne =>
      split
      · next hlt =>
        refine List.pairwise_cons.mpr ⟨fun b hb => ?_, List.pairwise_cons.mpr ⟨ha, hl⟩⟩
        rcases List.mem_cons.mp hb with rfl | hb
        · exact hlt
        · exact lt_trans hlt (ha b hb)
      · next hge =>
        refine List.pairwise_cons.mpr ⟨fun b hb => ?_, ih hl⟩
        rcases mem_place hb with rfl | hb
        · exact lt_of_le_of_ne (not_lt.mp hge) hne
        · exact ha b hb

theorem Sorted.insertAll {d : Dict α} (h : d.Sorted) (pairs : List (String × α)) :
    (d.insertAll pairs).Sorted := by
  induction pairs generalizing d with
  | nil => exact h
  | cons e pairs ih => exact ih (h.insert e.1 e.2)

theorem sorted_ofList (pairs : List (String × α)) : (ofList pairs).Sorted :=
  sorted_empty.insertAll pairs

theorem Sorted.erase {d : Dict α} (h : d.Sorted) (key : String) : (d.erase key).Sorted :=
  List.Pairwise.filter _ h

theorem Sorted.map {d : Dict α} (h : d.Sorted) (f : α → β) : (d.map f).Sorted :=
  List.Pairwise.map _ (fun _ _ hlt => hlt) h

private theorem lookup_ne_none {e : String × α} {l : List (String × α)} (h : e ∈ l) :
    lookup e.1 l ≠ none := by
  induction l with
  | nil => cases h
  | cons a l ih =>
    by_cases ha : a.1 = e.1
    · simp [lookup, ha]
    · have hrest : e ∈ l := by
        rcases List.mem_cons.mp h with rfl | h
        · exact absurd rfl ha
        · exact h
      simpa [lookup, ha] using ih hrest

theorem insert_insert (d : Dict α) (key : String) (value new : α) :
    (d.insert key value).insert key new = d.insert key new := by
  obtain ⟨l⟩ := d
  show Dict.mk (place key new (place key value l)) = ⟨place key new l⟩
  congr 1
  induction l with
  | nil => simp [place]
  | cons e l ih =>
    obtain ⟨name, old⟩ := e
    by_cases hname : name = key
    · simp [place, hname]
    · by_cases hlt : key < name
      · simp [place, hname, hlt]
      · simp [place, hname, hlt, ih]

theorem Sorted.keys_nodup {d : Dict α} (h : d.Sorted) : d.keys.Nodup := by
  have hne : d.keys.Pairwise (· ≠ ·) := List.Pairwise.map _ (fun _ _ hlt => ne_of_lt hlt) h
  exact hne

theorem lookup_of_mem {key : String} {value : α} {l : List (String × α)} (hnodup : (l.map (·.1)).Nodup)
    (h : (key, value) ∈ l) : lookup key l = some value := by
  induction l with
  | nil => cases h
  | cons e l ih =>
    obtain ⟨he, hnodup⟩ := List.nodup_cons.mp hnodup
    rcases List.mem_cons.mp h with rfl | h
    · simp [lookup]
    · have hne : e.1 ≠ key := by
        rintro rfl
        exact he (List.mem_map.mpr ⟨_, h, rfl⟩)
      rw [lookup, if_neg hne]
      exact ih hnodup h

theorem Sorted.get?_eq_some_iff {d : Dict α} (h : d.Sorted) (key : String) (value : α) :
    d.get? key = some value ↔ (key, value) ∈ d.entries :=
  ⟨mem_of_lookup, lookup_of_mem h.keys_nodup⟩

theorem Sorted.mem_values_iff {d : Dict α} (h : d.Sorted) (value : α) :
    value ∈ d.values ↔ ∃ key, d.get? key = some value := by
  simp only [h.get?_eq_some_iff, values, List.mem_map, Prod.exists, exists_eq_right]

private theorem place_of_forall_lt {key : String} (value : α) {l : List (String × α)}
    (h : ∀ e ∈ l, e.1 < key) : place key value l = l ++ [(key, value)] := by
  induction l with
  | nil => rfl
  | cons a l ih =>
    have ha : a.1 < key := h a List.mem_cons_self
    rw [place, if_neg (ne_of_lt ha), if_neg (lt_asymm ha)]
    rw [ih fun e he => h e (List.mem_cons_of_mem _ he)]
    rfl

private theorem insertAll_of_pairwise (l m : List (String × α))
    (h : (l ++ m).Pairwise fun a b => a.1 < b.1) : insertAll ⟨l⟩ m = ⟨l ++ m⟩ := by
  induction m generalizing l with
  | nil => simp [insertAll]
  | cons e m ih =>
    have hlt : ∀ a ∈ l, a.1 < e.1 := fun a ha =>
      (List.pairwise_append.mp h).2.2 a ha e List.mem_cons_self
    have hplace : insert ⟨l⟩ e.1 e.2 = ⟨l ++ [e]⟩ := congrArg Dict.mk (place_of_forall_lt e.2 hlt)
    have hrest : (l ++ [e] ++ m).Pairwise fun a b => a.1 < b.1 := by simpa using h
    calc insertAll ⟨l⟩ (e :: m) = insertAll ⟨l ++ [e]⟩ m := congrArg (insertAll · m) hplace
      _ = ⟨l ++ [e] ++ m⟩ := ih _ hrest
      _ = ⟨l ++ e :: m⟩ := by simp

theorem Sorted.ofList_entries {d : Dict α} (h : d.Sorted) : ofList d.entries = d :=
  insertAll_of_pairwise [] d.entries h

theorem get?_insertAll (d : Dict α) (pairs : List (String × α)) (key : String) :
    (d.insertAll pairs).get? key = (lookup key pairs.reverse).or (d.get? key) := by
  induction pairs generalizing d with
  | nil => rfl
  | cons e pairs ih =>
    show ((d.insert e.1 e.2).insertAll pairs).get? key = _
    rw [ih, List.reverse_cons, lookup_append, get?_insert]
    by_cases h : key = e.1
    · simp [lookup, h]
    · simp [lookup, h, Ne.symm h]

theorem get?_ofList (pairs : List (String × α)) (key : String) :
    (ofList pairs).get? key = lookup key pairs.reverse := by
  rw [ofList, get?_insertAll, get?_empty, Option.or_none]

theorem get?_ofList_eq_some_iff {pairs : List (String × α)} (hnodup : (pairs.map (·.1)).Nodup)
    (key : String) (value : α) : (ofList pairs).get? key = some value ↔ (key, value) ∈ pairs := by
  have hreverse : (pairs.reverse.map (·.1)).Nodup := by
    rwa [List.map_reverse, List.nodup_reverse]
  rw [get?_ofList, ← List.mem_reverse]
  exact ⟨mem_of_lookup, lookup_of_mem hreverse⟩

theorem get?_overlay (d : Dict α) {e : Dict α} (h : e.Sorted) (key : String) :
    (d.overlay e).get? key = (e.get? key).or (d.get? key) := by
  rw [overlay, get?_insertAll, ← get?_ofList, h.ofList_entries]

theorem get?_map (d : Dict α) (f : α → β) (key : String) :
    (d.map f).get? key = (d.get? key).map f :=
  lookup_map key f d.entries

theorem get?_append (pairs more : List (String × α)) (key : String) :
    (ofList (pairs ++ more)).get? key = ((ofList more).get? key).or ((ofList pairs).get? key) := by
  simp only [get?_ofList, List.reverse_append, lookup_append]

theorem get?_ofList_map (pairs : List (String × α)) (f : α → β) (key : String) :
    (ofList (pairs.map fun e => (e.1, f e.2))).get? key = ((ofList pairs).get? key).map f := by
  rw [get?_ofList, get?_ofList, ← List.map_reverse, lookup_map]

theorem get?_ofList_filterMap {d : Dict α} (h : d.Sorted) (f : α → Option β) (key : String) :
    (ofList (d.entries.filterMap fun e => (f e.2).map fun b => (e.1, b))).get? key =
      (d.get? key).bind f := by
  let found : Dict β := ⟨d.entries.filterMap fun e => (f e.2).map fun b => (e.1, b)⟩
  have hsorted : found.Sorted := by
    refine List.Pairwise.filterMap _ (fun a a' hlt b hb b' hb' => ?_) h
    obtain ⟨x, -, rfl⟩ := Option.map_eq_some_iff.mp hb
    obtain ⟨y, -, rfl⟩ := Option.map_eq_some_iff.mp hb'
    exact hlt
  have hsome (b : β) : found.get? key = some b ↔ (d.get? key).bind f = some b := by
    rw [hsorted.get?_eq_some_iff, Option.bind_eq_some_iff]
    simp only [found, List.mem_filterMap, Option.map_eq_some_iff, Prod.mk.injEq, Prod.exists,
      h.get?_eq_some_iff]
    constructor
    · rintro ⟨_, a, ha, _, hb, rfl, rfl⟩
      exact ⟨a, ha, hb⟩
    · rintro ⟨a, ha, hb⟩
      exact ⟨key, a, ha, b, hb, rfl, rfl⟩
  show (ofList found.entries).get? key = _
  rw [hsorted.ofList_entries]
  exact Option.ext hsome

theorem values_map (d : Dict α) (f : α → β) : (d.map f).values = d.values.map f := by
  simp [values, map]

theorem mem_keys_iff (d : Dict α) (key : String) : key ∈ d.keys ↔ d.get? key ≠ none := by
  constructor
  · intro h
    obtain ⟨e, he, rfl⟩ := List.mem_map.mp h
    exact lookup_ne_none he
  · intro h
    cases hv : d.get? key with
    | none => exact absurd hv h
    | some value => exact List.mem_map_of_mem (f := (·.1)) (mem_of_lookup hv)

theorem contains_iff_mem_keys (d : Dict α) (key : String) : d.contains key = true ↔ key ∈ d.keys := by
  rw [contains, Option.isSome_iff_ne_none, mem_keys_iff]

theorem mem_keys_ofList (pairs : List (String × α)) (key : String) :
    key ∈ (ofList pairs).keys ↔ key ∈ pairs.map (·.1) := by
  have hreverse : key ∈ pairs.map (·.1) ↔ key ∈ (Dict.mk pairs.reverse).keys := by simp [keys]
  rw [mem_keys_iff, get?_ofList, hreverse, mem_keys_iff]
  rfl

theorem get?_filter_name (d : Dict α) (keep : String → Bool) (name : String) :
    (d.filter fun key _ => keep key).get? name = if keep name then d.get? name else none := by
  obtain ⟨entries⟩ := d
  show lookup name (entries.filter fun e => keep e.1) = if keep name then lookup name entries else none
  induction entries with
  | nil => simp [lookup]
  | cons e entries ih =>
    by_cases hname : e.1 = name
    · subst hname
      by_cases hkeep : keep e.1 = true
      · simp [lookup, hkeep]
      · simp [hkeep, ih]
    · by_cases hkeep : keep e.1 = true
      · simp [lookup, hkeep, hname, ih]
      · simp [lookup, hkeep, hname, ih]

theorem Sorted.filter {d : Dict α} (h : d.Sorted) (keep : String → α → Bool) :
    (d.filter keep).Sorted :=
  List.Pairwise.filter _ h

theorem Sorted.findSome?_entries {d : Dict α} (h : d.Sorted) (key : String)
    (f : α → Option β) :
    (d.entries.findSome? fun e => if key = e.1 then f e.2 else none) = (d.get? key).bind f := by
  obtain ⟨l⟩ := d
  show _ = (lookup key l).bind f
  have hl : l.Pairwise fun a b => a.1 < b.1 := h
  clear h
  induction l with
  | nil => rfl
  | cons e l ih =>
    obtain ⟨hlt, hl⟩ := List.pairwise_cons.mp hl
    by_cases he : e.1 = key
    · have hrest : l.findSome? (fun e => if key = e.1 then f e.2 else none) = none := by
        rw [List.findSome?_eq_none_iff]
        intro x hx
        exact if_neg (he ▸ ne_of_lt (hlt x hx))
      rw [List.findSome?_cons, hrest]
      cases hf : f e.2 <;> simp [lookup, he, hf]
    · rw [List.findSome?_cons, if_neg (Ne.symm he)]
      simpa [lookup, he] using ih hl

theorem Sorted.filter_key {d : Dict α} (h : d.Sorted) (key : String) :
    (d.entries.filter fun e => e.1 = key).map (·.2) = (d.get? key).toList := by
  obtain ⟨l⟩ := d
  show (l.filter fun e => e.1 = key).map (·.2) = (lookup key l).toList
  have hl : l.Pairwise fun a b => a.1 < b.1 := h
  clear h
  induction l with
  | nil => rfl
  | cons e l ih =>
    obtain ⟨hlt, hl⟩ := List.pairwise_cons.mp hl
    by_cases he : e.1 = key
    · have hrest : l.filter (fun e => e.1 = key) = [] := by
        rw [List.filter_eq_nil_iff]
        intro f hf
        simpa [he] using ne_of_gt (hlt f hf)
      simp [lookup, he, hrest]
    · simp [lookup, he, ih hl]

/-- A sorted table is given by its look-ups. -/
theorem Sorted.ext {d e : Dict α} (hd : d.Sorted) (he : e.Sorted)
    (h : ∀ key, d.get? key = e.get? key) : d = e := by
  have hmem (x : String × α) : x ∈ d.entries ↔ x ∈ e.entries := by
    rw [← hd.get?_eq_some_iff x.1 x.2, ← he.get?_eq_some_iff x.1 x.2, h]
  have hperm : d.entries.Perm e.entries :=
    (List.perm_ext_iff_of_nodup (List.Nodup.of_map _ hd.keys_nodup)
      (List.Nodup.of_map _ he.keys_nodup)).mpr hmem
  have hanti (x y : String × α) (hxy : x.1 < y.1) (hyx : y.1 < x.1) : x = y :=
    absurd hyx (lt_asymm hxy)
  obtain ⟨ds⟩ := d
  obtain ⟨es⟩ := e
  exact congrArg Dict.mk (hperm.eq_of_pairwise (fun x y _ _ => hanti x y) hd he)

theorem Sorted.insert_get? {d : Dict α} (h : d.Sorted) {key : String} {value : α}
    (hget : d.get? key = some value) : d.insert key value = d := by
  apply (h.insert key value).ext h
  intro name
  by_cases hname : name = key
  · rw [get?_insert, if_pos hname, hname, hget]
  · rw [get?_insert, if_neg hname]

end ClassSchema.Dict
