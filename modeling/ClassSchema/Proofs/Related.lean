import ClassSchema.Proofs.Dict
import ClassSchema.Proofs.Traverse
import Mathlib.Data.List.Forall2

/-!
# Related tables and results

Where two runs differ in places only, their tables have related values under the same names, and their
outcomes are the same fault or related results. What the runs do with related data keeps it related.
-/

namespace ClassSchema

variable {α β γ δ ε : Type}

theorem exists_right_of_forall₂ {R : α → β → Prop} {xs : List α} {ys : List β}
    (h : List.Forall₂ R xs ys) {x : α} (hx : x ∈ xs) : ∃ y ∈ ys, R x y := by
  induction h with
  | nil => cases hx
  | cons hxy _ ih =>
    rcases List.mem_cons.mp hx with rfl | hx
    · exact ⟨_, List.mem_cons_self, hxy⟩
    · obtain ⟨y, hy, hr⟩ := ih hx
      exact ⟨y, List.mem_cons_of_mem _ hy, hr⟩

theorem exists_left_of_forall₂ {R : α → β → Prop} {xs : List α} {ys : List β}
    (h : List.Forall₂ R xs ys) {y : β} (hy : y ∈ ys) : ∃ x ∈ xs, R x y :=
  exists_right_of_forall₂ (R := flip R) h.flip hy

namespace Dict

/-- The same names in the same order, each with related values. -/
def Related (R : α → β → Prop) (d : Dict α) (e : Dict β) : Prop :=
  List.Forall₂ (fun x y => x.1 = y.1 ∧ R x.2 y.2) d.entries e.entries

variable {R : α → β → Prop} {d d' : Dict α} {e e' : Dict β} {a : α} {b : β}

theorem related_refl {R : α → α → Prop} (hR : ∀ a, R a a) (d : Dict α) : d.Related R d :=
  List.forall₂_same.mpr fun x _ => ⟨rfl, hR x.2⟩

theorem Related.keys_eq (h : d.Related R e) : d.keys = e.keys := by
  rw [keys, keys]
  exact List.forall₂_eq_eq_eq ▸ List.forall₂_map_left_iff.mpr
    (List.forall₂_map_right_iff.mpr (h.imp fun _ _ hxy => hxy.1))

theorem Related.values (h : d.Related R e) : List.Forall₂ R d.values e.values :=
  List.forall₂_map_left_iff.mpr (List.forall₂_map_right_iff.mpr (h.imp fun _ _ hxy => hxy.2))

theorem Related.get? (h : d.Related R e) (key : String) : (d.get? key = none ∧ e.get? key = none) ∨
    ∃ a b, d.get? key = some a ∧ e.get? key = some b ∧ R a b := by
  obtain ⟨l⟩ := d
  obtain ⟨m⟩ := e
  change List.Forall₂ _ l m at h
  rw [Dict.get?, Dict.get?]
  induction h with
  | nil => exact .inl ⟨rfl, rfl⟩
  | @cons x y l m hxy _ ih =>
    obtain ⟨name, value⟩ := x
    obtain ⟨name', value'⟩ := y
    obtain ⟨rfl, hvalue⟩ := hxy
    rw [lookup, lookup]
    split
    · exact .inr ⟨value, value', rfl, rfl, hvalue⟩
    · exact ih

theorem Related.map_get?_eq (h : d.Related R e) {f : α → γ} {g : β → γ} (hfg : ∀ a b, R a b → f a = g b)
    (key : String) : (d.get? key).map f = (e.get? key).map g := by
  rcases h.get? key with ⟨hd, he⟩ | ⟨a, b, hd, he, hab⟩
  · rw [hd, he]
    rfl
  · rw [hd, he, Option.map_some, Option.map_some, hfg a b hab]

theorem Related.contains_eq (h : d.Related R e) (key : String) : d.contains key = e.contains key := by
  have hunit := h.map_get?_eq (f := fun _ => ()) (g := fun _ => ()) (fun _ _ _ => rfl) key
  rw [contains, contains, ← Option.isSome_map (f := fun _ => ()), hunit, Option.isSome_map]

theorem Related.and_values (h : d.Related R e) {P : α → Prop} {Q : β → Prop} (hd : ∀ a ∈ d.values, P a)
    (he : ∀ b ∈ e.values, Q b) : d.Related (fun a b => R a b ∧ P a ∧ Q b) e := by
  obtain ⟨l⟩ := d
  obtain ⟨m⟩ := e
  change List.Forall₂ _ l m at h
  change List.Forall₂ _ l m
  change ∀ a ∈ l.map (·.2), P a at hd
  change ∀ b ∈ m.map (·.2), Q b at he
  induction h with
  | nil => exact .nil
  | cons hxy _ ih =>
    rw [List.map_cons, List.forall_mem_cons] at hd he
    exact .cons ⟨hxy.1, hxy.2, hd.1, he.1⟩ (ih hd.2 he.2)

theorem Related.insert (h : d.Related R e) (key : String) (hab : R a b) :
    (d.insert key a).Related R (e.insert key b) := by
  obtain ⟨l⟩ := d
  obtain ⟨m⟩ := e
  change List.Forall₂ _ (place key a l) (place key b m)
  change List.Forall₂ _ l m at h
  induction h with
  | nil => exact .cons ⟨rfl, hab⟩ .nil
  | @cons x y l m hxy hrest ih =>
    obtain ⟨name, value⟩ := x
    obtain ⟨name', value'⟩ := y
    obtain ⟨rfl, hvalue⟩ := hxy
    rw [place, place]
    split
    · exact .cons ⟨rfl, hab⟩ hrest
    · split
      · exact .cons ⟨rfl, hab⟩ (.cons ⟨rfl, hvalue⟩ hrest)
      · exact .cons ⟨rfl, hvalue⟩ ih

theorem Related.overlay (h : d.Related R e) (h' : d'.Related R e') :
    (d.overlay d').Related R (e.overlay e') := by
  obtain ⟨l⟩ := d'
  obtain ⟨m⟩ := e'
  rw [Dict.overlay, Dict.overlay, insertAll, insertAll]
  change List.Forall₂ _ l m at h'
  induction h' generalizing d e with
  | nil => exact h
  | @cons x y l m hxy _ ih =>
    obtain ⟨name, value⟩ := x
    obtain ⟨name', value'⟩ := y
    obtain ⟨rfl, hvalue⟩ := hxy
    exact ih (h.insert name hvalue)

end Dict

/-- Both give the same fault, or both give results, which are related. -/
inductive Agree (R : α → β → Prop) : Except ε α → Except ε β → Prop
  | ok {a : α} {b : β} : R a b → Agree R (.ok a) (.ok b)
  | error (e : ε) : Agree R (.error e) (.error e)

theorem Agree.elim {R : α → β → Prop} {x : Except ε α} {y : Except ε β} (h : Agree R x y) :
    (∃ e, x = .error e ∧ y = .error e) ∨ ∃ a b, x = .ok a ∧ y = .ok b ∧ R a b := by
  cases h with
  | ok hab => exact .inr ⟨_, _, rfl, rfl, hab⟩
  | error e => exact .inl ⟨e, rfl, rfl⟩

theorem Agree.map {R : α → β → Prop} {S : γ → δ → Prop} {f : α → γ} {g : β → δ} {x : Except ε α}
    {y : Except ε β} (h : Agree R x y) (hfg : ∀ a b, R a b → S (f a) (g b)) :
    Agree S (x.map f) (y.map g) := by
  cases h with
  | ok hab => exact .ok (hfg _ _ hab)
  | error e => exact .error e

theorem Agree.traverse {R : α → β → Prop} {S : γ → δ → Prop} {f : α → Except ε γ} {g : β → Except ε δ}
    {xs : List α} {ys : List β} (h : List.Forall₂ R xs ys) (hfg : ∀ x y, R x y → Agree S (f x) (g y)) :
    Agree (List.Forall₂ S) (ClassSchema.traverse f xs) (ClassSchema.traverse g ys) := by
  induction h with
  | nil => exact .ok .nil
  | cons hxy _ ih =>
    rw [ClassSchema.traverse, ClassSchema.traverse]
    rcases (hfg _ _ hxy).elim with ⟨e, hx, hy⟩ | ⟨a, b, hx, hy, hab⟩
    · rw [hx, hy]
      exact .error e
    · rcases ih.elim with ⟨e, hxs, hys⟩ | ⟨as, bs, hxs, hys, hrest⟩
      · rw [hx, hy, hxs, hys]
        exact .error e
      · rw [hx, hy, hxs, hys]
        exact .ok (.cons hab hrest)

end ClassSchema
