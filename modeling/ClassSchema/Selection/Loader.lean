import ClassSchema.Class.Index
import ClassSchema.Glob.Files
import ClassSchema.Selection.Patterns
/-!
# Bulk loaders

A loader keeps some classes of a collection by its include and exclude patterns: by ancestor, by
marker, by a glob over class names, or by a glob over the files that declare them. Its targets are
checked against the index before anything is selected.
-/
namespace ClassSchema

structure Loader where
  id : String
  patterns : Patterns
  validate : Index → Except Fault Unit
  collect : Collection → Index → Except Fault Collection

/-- What a loader is made from. -/
structure LoaderOptions where
  patterns : Patterns
  /-- The folder that relative file patterns start from. -/
  base : String
  files : FileTree

namespace Loader

/-- Keeps what the patterns keep, a pattern matching a class by `isMatch`. -/
def keep (patterns : Patterns) (isMatch : String → String → String → Bool) (c : Collection) :
    Collection :=
  c.filter fun name path => patterns.keeps (isMatch name path)

namespace Inheritance

def id : String := "inheritanceLoader"

/-- A class matches itself and its ancestors. -/
def isMatch (ix : Index) (name target : String) : Bool := name = target || ix.isSubclass name target

def checkTarget (ix : Index) (target : String) : Except Fault Unit :=
  if ix.hasClass target then .ok ()
  else if ix.hasMarkerNamed target then
    .error (.loaderTarget id target "is a marker, not a class")
  else .error (.unknownClass target (suggest? target ix.knownNames))

end Inheritance

def byAncestor (patterns : Patterns) : Loader where
  id := Inheritance.id
  patterns
  validate ix := checkEach (Inheritance.checkTarget ix) patterns.all
  collect c ix := .ok (keep patterns (fun name _ => Inheritance.isMatch ix name) c)

namespace Marker

def id : String := "markerLoader"

def checkTarget (ix : Index) (target : String) : Except Fault Unit :=
  if ix.hasMarkerNamed target then .ok ()
  else if ix.hasClass target then .error (.loaderTarget id target "is a class, not a marker")
  else .error (.loaderTarget id target s!"no such marker{hint (suggest? target ix.knownNames)}")

end Marker

def byMarker (patterns : Patterns) : Loader where
  id := Marker.id
  patterns
  validate ix := checkEach (Marker.checkTarget ix) patterns.all
  collect c ix := .ok (keep patterns (fun name _ => ix.hasMarker name) c)

namespace Namespace

def id : String := "namespaceLoader"

def compile (pattern : String) : Except Fault (String × Glob.Pattern) :=
  match Glob.parse pattern with
  | .ok p => .ok (pattern, p)
  | .error message => .error (.globPattern pattern message)

def isMatch (compiled : List (String × Glob.Pattern)) (name pattern : String) : Bool :=
  match Dict.lookup pattern compiled with
  | some p => Glob.accepts p name
  | none => false

end Namespace

/-- All patterns are read before the loader is made. -/
def byName (patterns : Patterns) : Except Fault Loader :=
  match traverse Namespace.compile patterns.all with
  | .error e => .error e
  | .ok compiled =>
    .ok {
      id := Namespace.id
      patterns
      validate := fun _ => .ok ()
      collect := fun c _ => .ok (keep patterns (fun name _ => Namespace.isMatch compiled name) c) }

namespace FilePath

def id : String := "filepathLoader"

def checkPattern (base pattern : String) : Except Fault Unit :=
  match Glob.parse (Path.join base pattern) with
  | .ok _ => .ok ()
  | .error message => .error (.globPattern pattern message)

/-- The files a pattern stands for. -/
def expand (o : LoaderOptions) (pattern : String) : Except Fault (String × List String) :=
  match Glob.files o.files (Path.join o.base pattern) with
  | .ok files => .ok (pattern, files)
  | .error message => .error (.globPattern pattern message)

def expandAll (o : LoaderOptions) : Except Fault (List (String × List String)) :=
  traverse (expand o) o.patterns.all

/-- A pattern without files is a mistake, not an empty choice. -/
def checkFiles (base : String) (found : String × List String) : Except Fault Unit :=
  if found.2.isEmpty then .error (.loaderTarget id found.1 s!"matches no files under {base}")
  else .ok ()

def isMatch (expanded : List (String × List String)) (path pattern : String) : Bool :=
  match Dict.lookup pattern expanded with
  | some files => files.any (Path.same path)
  | none => false

end FilePath

def byFile (o : LoaderOptions) : Except Fault Loader :=
  match checkEach (FilePath.checkPattern o.base) o.patterns.all with
  | .error e => .error e
  | .ok () =>
    .ok {
      id := FilePath.id
      patterns := o.patterns
      validate := fun _ =>
        match FilePath.expandAll o with
        | .error e => .error e
        | .ok found => checkEach (FilePath.checkFiles o.base) (Dict.ofList found).entries
      collect := fun c _ =>
        match FilePath.expandAll o with
        | .error e => .error e
        | .ok found => .ok (keep o.patterns (fun _ path => FilePath.isMatch found path) c) }

end Loader
end ClassSchema
