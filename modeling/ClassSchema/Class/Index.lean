import ClassSchema.Class.Collection
import ClassSchema.Class.Descriptor
import ClassSchema.Fault
/-!
# Class index

The index of all classes and markers answers questions about inheritance: ancestors by walking up the
declared parents, descent by reachability along the edges from child to parent, inherited markers and
fields. A list of descriptors makes an index when names are unique, parents are known and of the same
kind, no class is used as a marker, and no chain of parents runs in a circle.
-/
namespace ClassSchema

structure Index where
  descriptors : Dict Descriptor
  /-- Markers that classes carry without a descriptor of their own, in name order. -/
  implicitMarkers : List String
  /-- Child and parent of every extension. -/
  edges : List (String × String)
deriving Repr

namespace Index

/-- Descriptors by name; a name that comes twice is refused. -/
def byName : List Descriptor → Dict Descriptor → Except Fault (Dict Descriptor)
  | [], known => .ok known
  | d :: ds, known =>
    match known.get? d.name with
    | some first => .error (.duplicateClass d.name first.path d.path)
    | none => byName ds (known.insert d.name d)

/-- The parent must be known and of the same kind. -/
def checkParent (known : Dict Descriptor) (d : Descriptor) : Except Fault Unit :=
  match d.parent with
  | none => .ok ()
  | some parent =>
    if (known.get? parent).map (·.kind) = some d.kind then .ok ()
    else .error (.descriptor d.path s!"parent '{parent}' is not a known {d.kind.title}")

/-- A marker may be unknown, but not a class. -/
def checkMarker (known : Dict Descriptor) (d : Descriptor) (marker : String) : Except Fault Unit :=
  if (known.get? marker).map (·.kind) = some .ordinary then
    .error (.descriptor d.path s!"'{marker}' is a class, not a marker")
  else .ok ()

def checkLinks (known : Dict Descriptor) (d : Descriptor) : Except Fault Unit :=
  match checkParent known d with
  | .error e => .error e
  | .ok () => checkEach (checkMarker known d) d.markers

def parentOf (known : Dict Descriptor) (name : String) : Option String :=
  (known.get? name).bind (·.parent)

/-- Whether the chain of parents from `name` ends within `steps`. -/
def reachesRoot (known : Dict Descriptor) : Nat → String → Bool
  | 0, name => (parentOf known name).isNone
  | steps + 1, name =>
    match parentOf known name with
    | none => true
    | some parent => reachesRoot known steps parent

/-- A walk up the parents as far as it meets no class seen before. A class that is its own parent
ends it at once. -/
def walk (known : Dict Descriptor) (seen : List String) : Nat → String → Except String (List String)
  | 0, _ => .ok []
  | steps + 1, name =>
    match parentOf known name with
    | none => .ok [name]
    | some parent =>
      if parent = name then .error name
      else if seen.contains parent then .ok [name]
      else
        match walk known (parent :: seen) steps parent with
        | .error own => .error own
        | .ok path => .ok (name :: path)

/-- All classes, every walk from a class not seen before put in front of the earlier ones. -/
def walks (known : Dict Descriptor) : List String → List String → Except String (List String)
  | [], order => .ok order
  | name :: names, order =>
    if order.contains name then walks known names order
    else
      match walk known (name :: order) known.size name with
      | .error own => .error own
      | .ok path => walks known names (path ++ order)

/-- The first class of the order that has a child not yet passed, answered by the least such child. -/
def unpassedChild (edges : List (String × String)) : List String → List String → Option String
  | _, [] => none
  | passed, name :: rest =>
    match edges.find? fun e => e.2 = name && !(name :: passed).contains e.1 with
    | some e => some e.1
    | none => unpassedChild edges (name :: passed) rest

/-- The class that a message names for a circle of parents. -/
def circleName (known : Dict Descriptor) (edges : List (String × String)) : String :=
  match walks known known.keys [] with
  | .error own => own
  | .ok order => (unpassedChild edges [] order).getD ""

def checkCircles (known : Dict Descriptor) (edges : List (String × String)) : Except Fault Unit :=
  if known.keys.all (reachesRoot known known.size) then .ok ()
  else
    let name := circleName known edges
    .error (.descriptor (((known.get? name).map (·.path)).getD "")
      s!"inheritance cycle through '{name}'")

/-- The edges from child to parent, in the order of the children. -/
def edgesOf (known : Dict Descriptor) : List (String × String) :=
  known.entries.filterMap fun e => e.2.parent.map (e.1, ·)

def implicitMarkersOf (known : Dict Descriptor) : List String :=
  let carried := known.values.flatMap (·.markers)
  (Dict.ofList ((carried.filter fun m => !known.contains m).map fun m => (m, ()))).keys

def ofDescriptors (ds : List Descriptor) : Except Fault Index :=
  match byName ds .empty with
  | .error e => .error e
  | .ok known =>
    match checkEach (checkLinks known) known.values with
    | .error e => .error e
    | .ok () =>
      match checkCircles known (edgesOf known) with
      | .error e => .error e
      | .ok () => .ok ⟨known, implicitMarkersOf known, edgesOf known⟩

variable (ix : Index)

def descriptor (name : String) : Option Descriptor := ix.descriptors.get? name

def isKind (name : String) (kind : ClassKind) : Bool :=
  (ix.descriptor name).map (·.kind) = some kind

def hasClass (name : String) : Bool := ix.isKind name .ordinary

def hasMarkerNamed (name : String) : Bool :=
  ix.isKind name .marker || ix.implicitMarkers.contains name

/-- Every name an index knows, those of implicit markers last. -/
def knownNames : List String := ix.descriptors.keys ++ ix.implicitMarkers

/-- All classes with their files, markers left out. -/
def collection : Collection :=
  ⟨(ix.descriptors.entries.filter fun e => e.2.kind = .ordinary).map fun e => (e.1, e.2.path)⟩

/-- The chain of parents above a class, at most `steps` long, the nearest first. -/
def climb : Nat → String → List Descriptor
  | 0, _ => []
  | steps + 1, name =>
    match (ix.descriptor name).bind (·.parent) with
    | none => []
    | some parent =>
      match ix.descriptor parent with
      | none => []
      | some d => d :: climb steps parent

def ancestors (name : String) : List Descriptor := ix.climb ix.descriptors.size name

/-- Whether some node of `reached`, or one within `steps` edges of them, is `goal`. -/
def reaches (goal : String) : Nat → List String → Bool
  | 0, reached => reached.contains goal
  | steps + 1, reached =>
    reached.contains goal ||
      match ix.edges.filterMap fun e => if reached.contains e.1 then some e.2 else none with
      | [] => false
      | next => reaches goal steps next

/-- Whether a class strictly descends from another. -/
def isSubclass (name ancestor : String) : Bool :=
  name ≠ ancestor && ix.descriptors.contains name && ix.descriptors.contains ancestor &&
    ix.reaches ancestor ix.descriptors.size [name]

/-- Whether a class or one of its ancestors carries a marker. -/
def hasMarker (name marker : String) : Bool :=
  match ix.descriptor name with
  | none => false
  | some d => (d :: ix.ancestors name).any fun a => a.markers.contains marker

/-- The fields of a class with those it inherits; the nearest declaration wins. -/
def fieldsOf (name : String) : Dict FieldSpec :=
  match ix.descriptor name with
  | none => .empty
  | some d =>
    let inherited : Dict FieldSpec :=
      (ix.ancestors name).reverse.foldl (fun fields a => fields.overlay a.fields) .empty
    inherited.overlay d.fields

end Index
end ClassSchema
