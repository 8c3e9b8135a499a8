import ClassSchema.Template.Node
import ClassSchema.Value.Reader
import ClassSchema.Value.Text
/-!
# Scopes of templates

What references mean at a place of a template. Every block that goes into a value adds a frame, and a
reference begins at one of the frames. What is missing reads as null, but a list has no members by
name: asking for one is a failure.
-/
namespace ClassSchema.Template

/-- What a block that goes into a value adds: the item, what is told about its place, and its names. -/
structure Frame where
  item : Value
  places : Dict Value
  named : List (String × Value)

/-- The frames at a place of a template, the innermost first, and the value on top of all. -/
structure Scope where
  frames : List Frame
  top : Value

namespace Scope

/-- The scope of a whole template. -/
def ofTop (v : Value) : Scope := ⟨[⟨v, .empty, []⟩], v⟩

def push (s : Scope) (f : Frame) : Scope := { s with frames := f :: s.frames }

end Scope

def greatestPlace : Nat := UInt64.size - 1

/-- A place in a list as a name gives it; a plus sign and zeros may lead. -/
def placeNumber? (name : String) : Option Nat :=
  let ds := match name.toList with
    | '+' :: ds => ds
    | ds => ds
  if !ds.isEmpty && ds.all isDigit && digitsValue ds ≤ greatestPlace then some (digitsValue ds)
  else none

/-- One step into a value. Only a list can refuse, when the name is no number. -/
def step? (name : String) : Value → Option Value
  | .table fields => some (.ofOption (fields.get? name))
  | .list items => (placeNumber? name).map fun i => .ofOption items[i]?
  | _ => some .null

def walk? : List String → Value → Option Value
  | [], v => some v
  | name :: rest, v => (step? name v).bind (walk? rest)

/-- What the innermost frame that has a name gives to it. -/
def namedIn? (name : String) : List Frame → Option Value
  | [] => none
  | f :: fs =>
    match Dict.lookup name f.named with
    | some v => some v
    | none => namedIn? name fs

namespace Scope

/-- The item so many frames out; the innermost one where there are too few. -/
def itemAt (s : Scope) (up : Nat) : Value :=
  match s.frames[up]? with
  | some f => f.item
  | none => (s.frames.head?.map (·.item)).getD s.top

/-- The value that a reference leads to, or none if a list refuses. -/
def find? (s : Scope) (r : Reference) : Option Value :=
  match r.start, r.names with
  | .top, names => walk? names s.top
  | .place _, [] => some .null
  | .place up, name :: _ => some (.ofOption ((s.frames[up]?).bind (·.places.get? name)))
  | .item up, [] => some (s.itemAt up)
  | .item up, name :: rest =>
    match namedIn? name s.frames with
    | some v => walk? rest v
    | none => walk? (name :: rest) (s.itemAt up)

end Scope

mutual

/-- A value as a template prints it. -/
def shown : Value → List Char
  | .null => []
  | .string s => s.toList
  | .list items => '[' :: shownItems items ++ [']']
  | .table _ => "[object]".toList
  | v => v.chars

def shownItems : List Value → List Char
  | [] => []
  | [v] => shown v
  | v :: vs => shown v ++ ',' :: ' ' :: shownItems vs

end

end ClassSchema.Template
