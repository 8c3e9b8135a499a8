import ClassSchema.Fault

/-!
# Successful work

A sequence of steps succeeds if all of its steps do. What each step keeps, the sequence keeps.
-/

namespace ClassSchema

variable {α β ε σ : Type}

theorem bind_apply (x : EStateM ε σ α) (f : α → EStateM ε σ β) (s : σ) :
    (x >>= f) s = match x s with
      | .ok a s₁ => f a s₁
      | .error e s₁ => .error e s₁ := by
  simp only [bind, EStateM.bind]
  cases x s <;> rfl

theorem bind_ok_iff {x : EStateM ε σ α} {f : α → EStateM ε σ β} {s s' : σ} {b : β} :
    (x >>= f) s = .ok b s' ↔ ∃ a s₁, x s = .ok a s₁ ∧ f a s₁ = .ok b s' := by
  rw [bind_apply]
  cases x s with
  | ok a s₁ =>
    constructor
    · intro h
      exact ⟨a, s₁, rfl, h⟩
    · rintro ⟨a, s₁, ⟨⟩, h⟩
      exact h
  | error e s₁ => simp

theorem except_bind_ok_iff {x : Except ε α} {f : α → Except ε β} {b : β} :
    (x >>= f) = .ok b ↔ ∃ a, x = .ok a ∧ f a = .ok b := by
  cases x <;> simp [bind, Except.bind]

theorem eq_ok_of_toOption {x : Except ε α} {a : α} (h : x.toOption = some a) : x = .ok a := by
  cases x with
  | error e => cases h
  | ok b => rw [Option.some.inj h]

theorem foldlM_ok {P : β → Prop} {f : β → α → Except ε β} {xs : List α} {b b' : β} (hb : P b)
    (hf : ∀ b, ∀ x ∈ xs, ∀ b', P b → f b x = .ok b' → P b') (h : xs.foldlM f b = .ok b') : P b' := by
  induction xs generalizing b with
  | nil => exact Except.ok.inj h ▸ hb
  | cons x xs ih =>
    obtain ⟨c, hc, h⟩ := except_bind_ok_iff.mp h
    exact ih (hf b x List.mem_cons_self c hb hc)
      (fun b y hy => hf b y (List.mem_cons_of_mem _ hy)) h

theorem traverse_congr {f g : α → Except ε β} {xs : List α} (h : ∀ x ∈ xs, f x = g x) :
    traverse f xs = traverse g xs := by
  induction xs with
  | nil => rfl
  | cons x xs ih =>
    rw [traverse, traverse, h x List.mem_cons_self, ih fun y hy => h y (List.mem_cons_of_mem _ hy)]

theorem checkEach_congr {f g : α → Except ε Unit} {xs : List α} (h : ∀ x ∈ xs, f x = g x) :
    checkEach f xs = checkEach g xs := by
  induction xs with
  | nil => rfl
  | cons x xs ih =>
    rw [checkEach, checkEach, h x List.mem_cons_self, ih fun y hy => h y (List.mem_cons_of_mem _ hy)]

theorem checkEach_append (f : α → Except ε Unit) (xs ys : List α) :
    checkEach f (xs ++ ys) = match checkEach f xs with
      | .error e => .error e
      | .ok () => checkEach f ys := by
  induction xs with
  | nil => rfl
  | cons x xs ih =>
    simp only [List.cons_append, checkEach, ih]
    cases f x <;> rfl

theorem checkEach_eq_error_iff (f : α → Except ε Unit) (l : List α) (e : ε) :
    checkEach f l = .error e ↔ ∃ earlier x later, l = earlier ++ x :: later ∧
      (∀ y ∈ earlier, f y = .ok ()) ∧ f x = .error e := by
  constructor
  · intro h
    induction l with
    | nil => cases h
    | cons x l ih =>
      cases hx : f x with
      | error e' =>
        obtain rfl : e' = e := by simpa [checkEach, hx] using h
        exact ⟨[], x, l, rfl, by simp, hx⟩
      | ok _ =>
        obtain ⟨earlier, y, later, rfl, hearlier, hy⟩ := ih (by simpa [checkEach, hx] using h)
        exact ⟨x :: earlier, y, later, rfl, List.forall_mem_cons.mpr ⟨hx, hearlier⟩, hy⟩
  · rintro ⟨earlier, x, later, rfl, hearlier, hx⟩
    rw [checkEach_append, (checkEach_eq_ok_iff f earlier).mpr hearlier]
    simp [checkEach, hx]

theorem traverse_eq_ok_iff (f : α → Except ε β) (xs : List α) (ys : List β) :
    traverse f xs = .ok ys ↔ xs.map f = ys.map .ok := by
  induction xs generalizing ys with
  | nil => cases ys <;> simp [traverse]
  | cons x xs ih =>
    rw [traverse]
    cases hx : f x with
    | error e => cases ys <;> simp [hx]
    | ok y =>
      cases hr : traverse f xs with
      | error e =>
        have hne : ∀ zs : List β, xs.map f ≠ zs.map .ok := by
          intro zs h
          simp [(ih zs).mpr h] at hr
        cases ys <;> simp [hx, hne]
      | ok zs =>
        have hzs := (ih zs).mp hr
        cases ys with
        | nil => simp
        | cons z zs' =>
          have hmap : zs.map (Except.ok : β → Except ε β) = zs'.map .ok ↔ zs = zs' :=
            List.map_inj_right fun _ _ h => Except.ok.inj h
          simp [hx, hzs, hmap]

theorem map_eq_map_of_traverse {γ : Type} {f : α → Except ε β} {g : α → γ} {k : β → γ} {xs : List α}
    {ys : List β} (h : traverse f xs = .ok ys) (hf : ∀ x y, f x = .ok y → g x = k y) :
    xs.map g = ys.map k := by
  rw [traverse_eq_ok_iff] at h
  induction xs generalizing ys with
  | nil =>
    obtain rfl := List.map_eq_nil_iff.mp h.symm
    rfl
  | cons x xs ih =>
    cases ys with
    | nil => cases h
    | cons y ys =>
      obtain ⟨hx, hxs⟩ := List.cons.inj h
      rw [List.map_cons, List.map_cons, hf x y hx, ih hxs]

theorem exists_mem_of_traverse {f : α → Except ε β} {xs : List α} {ys : List β}
    (h : traverse f xs = .ok ys) {y : β} (hy : y ∈ ys) : ∃ x ∈ xs, f x = .ok y := by
  rw [traverse_eq_ok_iff] at h
  have hmem : Except.ok y ∈ xs.map f := by rw [h]; exact List.mem_map_of_mem hy
  exact List.mem_map.mp hmem

theorem exists_result_of_traverse {f : α → Except ε β} {xs : List α} {ys : List β}
    (h : traverse f xs = .ok ys) {x : α} (hx : x ∈ xs) : ∃ y ∈ ys, f x = .ok y := by
  rw [traverse_eq_ok_iff] at h
  have hmem : f x ∈ ys.map Except.ok := by rw [← h]; exact List.mem_map_of_mem hx
  obtain ⟨y, hy, he⟩ := List.mem_map.mp hmem
  exact ⟨y, hy, he.symm⟩

theorem exists_traverse {f : α → Except ε β} {xs : List α} (h : ∀ x ∈ xs, ∃ y, f x = .ok y) :
    ∃ ys, traverse f xs = .ok ys := by
  induction xs with
  | nil => exact ⟨[], rfl⟩
  | cons x xs ih =>
    obtain ⟨y, hy⟩ := h x List.mem_cons_self
    obtain ⟨ys, hys⟩ := ih fun x hx => h x (List.mem_cons_of_mem _ hx)
    exact ⟨y :: ys, by rw [traverse, hy, hys]⟩

end ClassSchema
