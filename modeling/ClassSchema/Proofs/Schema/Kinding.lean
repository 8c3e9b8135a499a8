import ClassSchema.Schema.Basic

/-!
# Kinds of references

Where a reference stands decides which kinds of definitions it may lead to. Validation holds every
position to that but one: a field of an object type or of an interface may lead to any definition, an
input type among them. So the schemas whose references all fit are those that validation accepts and
in which no such field has an input type.
-/

namespace ClassSchema

namespace Definition

/-- The fields that are read from a definition. -/
def outputFields : Definition → List Field
  | .object o => o.fields.values
  | .interface i => i.fields.values
  | _ => []

end Definition

namespace Schema

/-- A name that is a built-in scalar, or has a definition of one of the kinds. -/
def Refers (s : Schema) (kinds : List Kind) (name : String) : Prop :=
  name ∈ builtinScalars ∨ ∃ d, s.get? name = some d ∧ d.kind ∈ kinds

/-- The kinds that a field can be read as. -/
def outputKinds : List Kind := [.scalar, .enum, .type, .interface, .union]

/-- The kinds that can be given as an argument or in an input. -/
def inputKinds : List Kind := [.scalar, .enum, .input]

/-- The type of a field and the types of its arguments are of fitting kinds. -/
def FieldFits (s : Schema) (f : Field) : Prop :=
  s.Refers outputKinds (baseType f.type) ∧ ∀ a ∈ f.args, s.Refers inputKinds (baseType a.type)

/-- Every reference of a definition leads to a definition of a fitting kind. -/
def Fits (s : Schema) : Definition → Prop
  | .object o =>
    (∀ f ∈ o.fields.values, s.FieldFits f) ∧ ∀ n ∈ o.interfaces, ∃ i, s.get? n = some (.interface i)
  | .interface i => ∀ f ∈ i.fields.values, s.FieldFits f
  | .input i => ∀ f ∈ i.fields.values, s.Refers inputKinds (baseType f.type)
  | .union u => ∀ n ∈ u.members, ∃ o, s.get? n = some (.object o)
  | .enum _ | .scalar _ => True

def WellKinded (s : Schema) : Prop := ∀ d ∈ s.definitions.values, s.Fits d

/-- The type of a field that is read is no input type. -/
def Readable (s : Schema) (f : Field) : Prop :=
  ∀ i, s.get? (baseType f.type) = some (.input i) → baseType f.type ∈ builtinScalars

variable {s : Schema} {name : String}

theorem isKnown_iff : s.isKnown name = true ↔ name ∈ builtinScalars ∨ s.get? name ≠ none := by
  have hcontains : s.definitions.contains name = true ↔ s.get? name ≠ none :=
    Option.isSome_iff_ne_none
  rw [isKnown, Bool.or_eq_true, List.contains_iff_mem, hcontains]

theorem isInputType_iff : s.isInputType name = true ↔ s.Refers inputKinds name := by
  rw [isInputType, isLeaf, hasInput, Refers, Bool.or_assoc, Bool.or_eq_true, List.contains_iff_mem]
  refine or_congr_right ?_
  cases hget : s.get? name with
  | none => simp
  | some d => cases d <;> simp [inputKinds, Definition.kind]

theorem refers_outputKinds_iff : s.Refers outputKinds name ↔
    s.isKnown name = true ∧ ∀ i, s.get? name = some (.input i) → name ∈ builtinScalars := by
  rw [Refers, isKnown_iff]
  by_cases hbuiltin : name ∈ builtinScalars
  · simp [hbuiltin]
  · cases hget : s.get? name with
    | none => simp [hbuiltin]
    | some d => cases d <;> simp [hbuiltin, outputKinds, Definition.kind]

theorem checkTarget_eq_ok_iff {type field target : String} {fitting : Bool} :
    checkTarget type field target fitting = .ok () ↔ fitting = true := by
  cases fitting <;> simp [checkTarget]

theorem checkArgument_eq_ok_iff (type : String) (f : Field) (a : Argument) :
    s.checkArgument type f a = .ok () ↔ s.Refers inputKinds (baseType a.type) :=
  checkTarget_eq_ok_iff.trans isInputType_iff

theorem checkField_eq_ok_iff (type : String) (f : Field) :
    s.FieldFits f ↔ s.checkField type f = .ok () ∧ s.Readable f := by
  have hargs : checkEach (s.checkArgument type f) f.args = .ok () ↔
      ∀ a ∈ f.args, s.Refers inputKinds (baseType a.type) := by
    simp only [checkEach_eq_ok_iff, checkArgument_eq_ok_iff]
  have hcheck : s.checkField type f = .ok () ↔ s.isKnown (baseType f.type) = true ∧
      ∀ a ∈ f.args, s.Refers inputKinds (baseType a.type) := by
    rw [← hargs, checkField]
    cases hknown : s.isKnown (baseType f.type) <;> simp [checkTarget]
  rw [FieldFits, refers_outputKinds_iff, hcheck, Readable]
  exact and_right_comm

private theorem checkFields_eq_ok_iff (type : String) (fs : List Field) :
    (∀ f ∈ fs, s.FieldFits f) ↔
      checkEach (s.checkField type) fs = .ok () ∧ ∀ f ∈ fs, s.Readable f := by
  simp only [checkEach_eq_ok_iff, checkField_eq_ok_iff type]
  constructor
  · intro h
    exact ⟨fun f hf => (h f hf).1, fun f hf => (h f hf).2⟩
  · intro h f hf
    exact ⟨h.1 f hf, h.2 f hf⟩

theorem checkInterface_eq_ok_iff (type name : String) :
    s.checkInterface type name = .ok () ↔ ∃ i, s.get? name = some (.interface i) := by
  rw [checkInterface, checkTarget_eq_ok_iff, hasInterface]
  cases hget : s.get? name with
  | none => simp
  | some d => cases d <;> simp

theorem checkMember_eq_ok_iff (type name : String) :
    s.checkMember type name = .ok () ↔ ∃ o, s.get? name = some (.object o) := by
  rw [checkMember, checkTarget_eq_ok_iff, object?]
  cases hget : s.get? name with
  | none => simp
  | some d => cases d <;> simp

/-- A definition fits if it passes and all that is read from it can be read. -/
theorem fits_iff (d : Definition) :
    s.Fits d ↔ s.checkDefinition d = .ok () ∧ ∀ f ∈ d.outputFields, s.Readable f := by
  cases d with
  | object o =>
    have hfields := checkFields_eq_ok_iff (s := s) o.name o.fields.values
    have hinterfaces : checkEach (s.checkInterface o.name) o.interfaces = .ok () ↔
        ∀ n ∈ o.interfaces, ∃ i, s.get? n = some (.interface i) := by
      simp only [checkEach_eq_ok_iff, checkInterface_eq_ok_iff]
    have hcheck : s.checkDefinition (.object o) = .ok () ↔
        checkEach (s.checkField o.name) o.fields.values = .ok () ∧
          checkEach (s.checkInterface o.name) o.interfaces = .ok () := by
      rw [checkDefinition]
      cases checkEach (s.checkField o.name) o.fields.values <;> simp
    rw [Fits, hfields, hcheck, hinterfaces, Definition.outputFields]
    exact and_right_comm
  | interface i => exact checkFields_eq_ok_iff i.name i.fields.values
  | input i =>
    have hinputs : s.checkDefinition (.input i) = .ok () ↔
        ∀ f ∈ i.fields.values, s.Refers inputKinds (baseType f.type) := by
      rw [checkDefinition, checkEach_eq_ok_iff]
      exact forall₂_congr fun f _ => checkTarget_eq_ok_iff.trans isInputType_iff
    simp [Fits, hinputs, Definition.outputFields]
  | union u =>
    have hmembers : s.checkDefinition (.union u) = .ok () ↔
        ∀ n ∈ u.members, ∃ o, s.get? n = some (.object o) := by
      simp only [checkDefinition, checkEach_eq_ok_iff, checkMember_eq_ok_iff]
    simp [Fits, hmembers, Definition.outputFields]
  | enum e => simp [Fits, checkDefinition, Definition.outputFields]
  | scalar t => simp [Fits, checkDefinition, Definition.outputFields]

/-- The references of a schema fit exactly if validation accepts it and no field that is read has an
input type. -/
theorem wellKinded_iff_validate (s : Schema) : s.WellKinded ↔
    s.validate = .ok () ∧ ∀ d ∈ s.definitions.values, ∀ f ∈ d.outputFields, s.Readable f := by
  rw [WellKinded, validate, checkEach_eq_ok_iff]
  constructor
  · intro h
    exact ⟨fun d hd => ((fits_iff d).mp (h d hd)).1, fun d hd => ((fits_iff d).mp (h d hd)).2⟩
  · intro h d hd
    exact (fits_iff d).mpr ⟨h.1 d hd, h.2 d hd⟩

/-- An object type with one field, of an input type. -/
def filteredPage : ObjectType := (ObjectType.new "Page").addField (.new "filter" "Filter")

def filteredSchema : Schema :=
  ((new "default").put "Filter" (.input ⟨"Filter", none, .empty⟩)).put "Page" (.object filteredPage)

/-- Validation accepts a field of an input type. -/
theorem not_wellKinded_filteredSchema :
    filteredSchema.validate = .ok () ∧ ¬ filteredSchema.WellKinded := by
  refine ⟨rfl, ?_⟩
  intro h
  have hpage : Definition.object filteredPage ∈ filteredSchema.definitions.values :=
    List.mem_cons_of_mem _ List.mem_cons_self
  have hfilter : filteredSchema.Refers outputKinds "Filter" :=
    ((h _ hpage).1 (.new "filter" "Filter") List.mem_cons_self).1
  rcases hfilter with hbuiltin | ⟨d, hd, hkind⟩
  · exact absurd hbuiltin (by decide)
  · have hget : filteredSchema.get? "Filter" = some (.input ⟨"Filter", none, .empty⟩) := rfl
    rw [hget] at hd
    obtain rfl := Option.some.inj hd
    exact absurd hkind (by decide)

end Schema

end ClassSchema
