import ClassSchema.Build.Fields
import ClassSchema.Proofs.Dict
import ClassSchema.Proofs.Resolver.StaticContext
import ClassSchema.Proofs.Traverse

/-!
# Decisions on primaries

A decision stays once it is made, and every new one is what some field's own site finds. A field is bound to
its explicit resolver, or to what is decided for its type and name.
-/

namespace ClassSchema

namespace Decisions

variable {d d' d'' : Decisions} {allowed allowed' : String → String → Reference → Prop}

theorem get?_record (d : Decisions) (type field : String) (r : Reference) (type' field' : String) :
    (d.record type field r).get? type' field' =
      if type' = type ∧ field' = field then some r else d.get? type' field' := by
  by_cases h : type' = type ∧ field' = field
  · obtain ⟨rfl, rfl⟩ := h
    simp [get?, record]
  · have hne : ¬ (type, field) = (type', field') := by
      intro heq
      obtain ⟨rfl, rfl⟩ := Prod.mk.inj heq
      exact h ⟨rfl, rfl⟩
    rw [if_neg h]
    simp [get?, record, hne]

/-- Decisions stay as they are, and the new ones are allowed. -/
structure Adds (allowed : String → String → Reference → Prop) (d d' : Decisions) : Prop where
  kept : ∀ type field r, d.get? type field = some r → d'.get? type field = some r
  made : ∀ type field r, d'.get? type field = some r → d.get? type field = some r ∨ allowed type field r

theorem Adds.refl (allowed : String → String → Reference → Prop) (d : Decisions) :
    Adds allowed d d where
  kept := fun _ _ _ h => h
  made := fun _ _ _ h => .inl h

theorem Adds.trans (h : Adds allowed d d') (h' : Adds allowed d' d'') : Adds allowed d d'' where
  kept := fun type field r hr => h'.kept type field r (h.kept type field r hr)
  made := by
    intro type field r hr
    rcases h'.made type field r hr with hr | hr
    · exact h.made type field r hr
    · exact .inr hr

theorem Adds.mono (h : Adds allowed d d')
    (himp : ∀ type field r, allowed type field r → allowed' type field r) : Adds allowed' d d' where
  kept := h.kept
  made := fun type field r hr => (h.made type field r hr).imp_right (himp type field r)

end Decisions

open Decisions (Adds)

/-- Where a field comes from: its model, if it is one of a model, and its settings. -/
structure Origin where
  model : Option Model
  settings : FieldSettings

namespace Origin

/-- The resolver that the settings name, else the one that the class declares. -/
def explicit (g : Origin) (field : String) : Except Fault (Option Reference) :=
  match g.settings.explicitResolver with
  | .error e => .error e
  | .ok named => .ok (named.or (g.model.bind fun m => (m.fields.get? field).bind (·.resolver)))

/-- What discovery gives for a field, whatever was decided before. -/
def found (g : Origin) (b : Bindings) (type field : String) : Except Fault Reference :=
  discover b.strategy b.providers ⟨type, field, g.model.map (·.identifier)⟩
    (g.model.bind (·.defaultResolver)) b.default

/-- The primary that the site of a field determines by itself. -/
def primary (g : Origin) (b : Bindings) (type field : String) : Except Fault Reference :=
  match g.explicit field with
  | .error e => .error e
  | .ok (some r) => .ok r
  | .ok none => g.found b type field

/-- The decisions that a field may bring: it is left to discovery, which gives the reference. -/
def Decides (g : Origin) (b : Bindings) (type field : String) (r : Reference) : Prop :=
  g.explicit field = .ok none ∧ g.primary b type field = .ok r

/-- The field is bound to its explicit resolver, or to what is decided for its name. -/
def Binds (g : Origin) (d : Decisions) (type field : String) (f : Field) : Prop :=
  ∃ p explicit, f.resolver = some p ∧ g.explicit field = .ok explicit ∧
    explicit.or (d.get? type field) = some p.reference

theorem primary_of_left {g : Origin} {field : String} (h : g.explicit field = .ok none) (b : Bindings)
    (type : String) : g.primary b type field = g.found b type field := by
  rw [primary, h]

theorem Binds.kept {g : Origin} {d d' : Decisions} {type field : String} {f : Field}
    (h : g.Binds d type field f)
    (hkept : ∀ type field r, d.get? type field = some r → d'.get? type field = some r) :
    g.Binds d' type field f := by
  obtain ⟨p, explicit, hp, hexplicit, hr⟩ := h
  refine ⟨p, explicit, hp, hexplicit, ?_⟩
  cases explicit with
  | some r => exact hr
  | none => exact hkept type field _ hr

end Origin

section Fields

variable {b : Bindings} {d d' : Decisions} {type name : String} {f : Field}

theorem Deciding.ofExcept_ok_iff {α : Type} {x : Except Fault α} {a : α} :
    Deciding.ofExcept x d = .ok a d' ↔ x = .ok a ∧ d = d' := by
  cases x with
  | error e =>
    constructor
    · intro h
      cases h
    · rintro ⟨h, -⟩
      cases h
  | ok c =>
    constructor
    · intro h
      obtain ⟨rfl, rfl⟩ := EStateM.Result.ok.inj h
      exact ⟨rfl, rfl⟩
    · rintro ⟨h, rfl⟩
      obtain rfl := Except.ok.inj h
      rfl

theorem Deciding.ofExcept_bind_ok_iff {α β : Type} {x : Except Fault α} {k : α → Deciding β} {y : β} :
    (Deciding.ofExcept x >>= k) d = .ok y d' ↔ ∃ a, x = .ok a ∧ k a d = .ok y d' := by
  rw [bind_ok_iff]
  constructor
  · rintro ⟨a, d₁, hx, hk⟩
    obtain ⟨rfl, rfl⟩ := ofExcept_ok_iff.mp hx
    exact ⟨a, rfl, hk⟩
  · rintro ⟨a, rfl, hk⟩
    exact ⟨a, d, rfl, hk⟩

theorem Deciding.each_ok {α β : Type} {work : α → Deciding β}
    {A : String → String → Reference → Prop} {P : α → β → Decisions → Prop} {xs : List α}
    {ys : List β} (hkept : ∀ x y d d', P x y d →
      (∀ type field r, d.get? type field = some r → d'.get? type field = some r) → P x y d')
    (hstep : ∀ x ∈ xs, ∀ d y d', work x d = .ok y d' → P x y d' ∧ Adds A d d')
    (h : Deciding.each work xs d = .ok ys d') :
    List.Forall₂ (fun x y => P x y d') xs ys ∧ Adds A d d' := by
  induction xs generalizing d ys with
  | nil =>
    obtain ⟨rfl, rfl⟩ := EStateM.Result.ok.inj h
    exact ⟨.nil, .refl _ _⟩
  | cons x xs ih =>
    obtain ⟨y, d₁, hx, h⟩ := bind_ok_iff.mp h
    obtain ⟨rest, d₂, hxs, h⟩ := bind_ok_iff.mp h
    obtain ⟨rfl, rfl⟩ := EStateM.Result.ok.inj h
    obtain ⟨hgood, hadds⟩ := hstep x List.mem_cons_self d y d₁ hx
    obtain ⟨hrest, haddsRest⟩ := ih (fun x hx => hstep x (List.mem_cons_of_mem _ hx)) hxs
    exact ⟨.cons (hkept _ _ _ _ hgood haddsRest.kept) hrest, hadds.trans haddsRest⟩

theorem Bindings.primary_ok {g : Origin} {explicit : Option Reference} {r : Reference}
    (hexplicit : g.explicit name = .ok explicit)
    (h : b.primary type name g.model explicit d = .ok r d') :
    explicit.or (d'.get? type name) = some r ∧
      Adds (fun t n q => t = type ∧ n = name ∧ g.Decides b type name q) d d' := by
  rw [primary.eq_def] at h
  cases explicit with
  | some named =>
    obtain ⟨rfl, rfl⟩ := EStateM.Result.ok.inj h
    exact ⟨rfl, .refl _ _⟩
  | none =>
    obtain ⟨now, d₁, hget, h⟩ := bind_ok_iff.mp h
    obtain ⟨rfl, rfl⟩ := EStateM.Result.ok.inj hget
    cases hknown : d.get? type name with
    | some known =>
      rw [hknown] at h
      obtain ⟨rfl, rfl⟩ := EStateM.Result.ok.inj h
      exact ⟨hknown, .refl _ _⟩
    | none =>
      rw [hknown] at h
      obtain ⟨found, hfound, h⟩ := Deciding.ofExcept_bind_ok_iff.mp h
      obtain ⟨_, d₃, hrecord, h⟩ := bind_ok_iff.mp h
      obtain ⟨-, rfl⟩ := EStateM.Result.ok.inj hrecord
      obtain ⟨rfl, rfl⟩ := EStateM.Result.ok.inj h
      have hdecides : g.Decides b type name found :=
        ⟨hexplicit, (Origin.primary_of_left hexplicit b type).trans hfound⟩
      refine ⟨by simp [Decisions.get?_record], ?_, ?_⟩
      · intro t n q hq
        rw [Decisions.get?_record, if_neg, hq]
        rintro ⟨rfl, rfl⟩
        rw [hknown] at hq
        cases hq
      · intro t n q hq
        rw [Decisions.get?_record] at hq
        split at hq
        · next hsame =>
          obtain rfl := Option.some.inj hq
          exact .inr ⟨hsame.1, hsame.2, hdecides⟩
        · exact .inl hq

theorem Bindings.reference_plan {s : FieldSettings} {primary : Reference} {p : Plan}
    (h : b.plan s primary = .ok p) : p.reference = primary := by
  rw [plan] at h
  cases hplan : s.plan primary with
  | error e => simp [hplan] at h
  | ok q =>
    rw [hplan] at h
    obtain ⟨-, hreference, -⟩ := FieldSettings.plan_ok hplan
    cases hbind : q.bind b.registry with
    | error e => simp [bindable, hbind] at h
    | ok chain =>
      simp only [bindable, hbind, Except.ok.injEq] at h
      rw [← h, hreference]

theorem declaredField_ok {s : FieldSettings} (h : declaredField b type name s d = .ok f d') :
    (f.name = name ∧ Origin.Binds ⟨none, s⟩ d' type name f) ∧
      Adds (fun t n q => t = type ∧ n = name ∧ Origin.Decides ⟨none, s⟩ b type name q) d d' := by
  obtain ⟨fieldType, -, h⟩ := Deciding.ofExcept_bind_ok_iff.mp h
  obtain ⟨named, hnamed, h⟩ := Deciding.ofExcept_bind_ok_iff.mp h
  obtain ⟨r, d₃, hprimary, h⟩ := bind_ok_iff.mp h
  obtain ⟨p, hplan, h⟩ := Deciding.ofExcept_bind_ok_iff.mp h
  obtain ⟨rfl, rfl⟩ := EStateM.Result.ok.inj h
  have hexplicit : Origin.explicit ⟨none, s⟩ name = .ok named := by simp [Origin.explicit, hnamed]
  obtain ⟨hr, hadds⟩ := Bindings.primary_ok (g := ⟨none, s⟩) hexplicit hprimary
  refine ⟨⟨rfl, p, named, rfl, hexplicit, ?_⟩, hadds⟩
  rw [Bindings.reference_plan hplan]
  exact hr

/-- What a selected field of a model becomes: it is left out with its type, or it is bound. -/
def Model.Makes (m : Model) (exposed : Dict String) (e : String × FieldSettings) (made : Option Field)
    (d : Decisions) : Prop :=
  (∀ fieldType, m.fieldType exposed e.1 e.2 ≠ .ok (some fieldType)) ∧ made = none ∨
    (∃ fieldType, m.fieldType exposed e.1 e.2 = .ok (some fieldType)) ∧
      ∃ f, made = some f ∧ f.name = e.1 ∧ Origin.Binds ⟨some m, e.2⟩ d m.typeName e.1 f

theorem Model.Makes.kept {m : Model} {exposed : Dict String} {e : String × FieldSettings}
    {made : Option Field} (h : m.Makes exposed e made d)
    (hkept : ∀ type field r, d.get? type field = some r → d'.get? type field = some r) :
    m.Makes exposed e made d' := by
  rcases h with hnone | ⟨htype, f, hmade, hname, hbinds⟩
  · exact .inl hnone
  · exact .inr ⟨htype, f, hmade, hname, hbinds.kept hkept⟩

theorem Model.field_ok {m : Model} {exposed : Dict String} {s : FieldSettings} {made : Option Field}
    (h : m.field b exposed name s d = .ok made d') : m.Makes exposed (name, s) made d' ∧
      Adds (fun t n q => (∃ fieldType, m.fieldType exposed name s = .ok (some fieldType)) ∧
        t = m.typeName ∧ n = name ∧ Origin.Decides ⟨some m, s⟩ b m.typeName name q) d d' := by
  obtain ⟨fieldType, htype, h⟩ := Deciding.ofExcept_bind_ok_iff.mp h
  cases fieldType with
  | none =>
    obtain ⟨rfl, rfl⟩ := EStateM.Result.ok.inj h
    exact ⟨.inl ⟨by simp [htype], rfl⟩, .refl _ _⟩
  | some fieldType =>
    obtain ⟨named, hnamed, h⟩ := Deciding.ofExcept_bind_ok_iff.mp h
    obtain ⟨r, d₃, hprimary, h⟩ := bind_ok_iff.mp h
    obtain ⟨p, hplan, h⟩ := Deciding.ofExcept_bind_ok_iff.mp h
    obtain ⟨rfl, rfl⟩ := EStateM.Result.ok.inj h
    have hexplicit : Origin.explicit ⟨some m, s⟩ name =
        .ok (named.or ((m.fields.get? name).bind (·.resolver))) := by
      simp [Origin.explicit, hnamed]
    obtain ⟨hr, hadds⟩ := Bindings.primary_ok (g := ⟨some m, s⟩) hexplicit hprimary
    refine ⟨.inr ⟨⟨fieldType, htype⟩, _, rfl, rfl, p, _, rfl, hexplicit, ?_⟩, ?_⟩
    · rw [Bindings.reference_plan hplan]
      exact hr
    · exact hadds.mono fun _ _ _ hq => ⟨⟨fieldType, htype⟩, hq⟩

end Fields

end ClassSchema
