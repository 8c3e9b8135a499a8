import ClassSchema.Resolver.Plan
/-!
# Built-in resolvers

The provider `Builtin` reads properties and collections of a source, filters a list by the query's
arguments, cuts a page out of it or takes its first item, and stops at null.
-/
namespace ClassSchema.Builtin

def providerName : String := "Builtin"

/-- The key a context names, else the field itself. -/
def keyOf (call : Call) (setting : String) : String :=
  ((call.context.get? setting).bind Value.string?).getD call.field

/-- The member of the source that `property` names. -/
def resolve : Primary := fun source call =>
  .ok (.ofOption (source.member? (keyOf call "property")))

/-- The list in the source that `collection` names; none or null counts as empty. -/
def read : Primary := fun source call =>
  let key := keyOf call "collection"
  match source.member? key with
  | none => .ok (.list [])
  | some .null => .ok (.list [])
  | some (.list items) => .ok (.list items)
  | some other => .error (.failed s!"collection '{key}' is not a list (found {other.sortName})")

/-- Stops with null where there is nothing to go on with. -/
def stopAtNull : ChainStep := fun v _ =>
  .ok (match v with
    | .null => .done .null
    | v => .next v)

/-- The arguments that filter: all but the paging ones and those that are null. -/
def criteria (args : Dict Value) : List (String × Value) :=
  args.entries.filter fun e => e.1 ≠ "offset" && e.1 ≠ "limit" && !e.2.isNull

/-- Whether a table has every criterion as an equal member. -/
def meets (criteria : List (String × Value)) (item : Value) : Bool :=
  criteria.all fun e =>
    match item.member? e.1 with
    | some v => v.same e.2
    | none => false

def filterByArgs : ChainStep := fun v call =>
  let wanted := criteria call.args
  match v with
  | .list items => .ok (.next (.list (if wanted.isEmpty then items else items.filter (meets wanted))))
  | v => .ok (.next v)

/-- A count among the arguments; null counts as none. -/
def countArg (args : Dict Value) (name : String) : Except ResolveFault (Option Nat) :=
  match args.get? name with
  | none => .ok none
  | some .null => .ok none
  | some (.number (.integer (.ofNat n))) => .ok (some n)
  | some _ => .error (.failed s!"argument '{name}' must be a non-negative integer")

/-- The items after `offset`, at most `limit` of them. -/
def page (offset : Nat) (limit : Option Nat) (items : List Value) : List Value :=
  match limit with
  | some n => (items.drop offset).take n
  | none => items.drop offset

def paginate : ChainStep := fun v call =>
  match countArg call.args "offset" with
  | .error e => .error e
  | .ok offset =>
    match countArg call.args "limit" with
    | .error e => .error e
    | .ok limit =>
      match v with
      | .list items => .ok (.next (.list (page (offset.getD 0) limit items)))
      | v => .ok (.next v)

def first : ChainStep := fun v _ =>
  match v with
  | .list items => .ok (.next (.ofOption items.head?))
  | v => .ok (.next v)

def provider : Provider :=
  Provider.new providerName
    |>.withPrimary "resolve" resolve
    |>.withPrimary "read" read
    |>.withStep "requireSource" stopAtNull
    |>.withStep "nullGuard" stopAtNull
    |>.withStep "filterByArgs" filterByArgs
    |>.withStep "paginate" paginate
    |>.withStep "first" first

def reference (method : String) : Reference := ⟨providerName, method⟩

end ClassSchema.Builtin
