import ClassSchema.Fault
import ClassSchema.Files.Path
import ClassSchema.Files.Tree
/-!
# Reading and writing by path

Absolute paths are followed through a file tree piece by piece: an empty piece and a dot stay in a
folder, two dots leave it. What is not there, or is no folder where one is needed, cannot be followed.
-/
namespace ClassSchema.FileTree

/-- Follows the pieces of a path from a place. -/
def follow (t : FileTree) : List String → List String → Option (List String)
  | [], place => some place
  | piece :: rest, place =>
    match t.at? place with
    | some (.folder es) =>
      if piece = "" || piece = "." then follow t rest place
      else if piece = ".." then follow t rest place.dropLast
      else if es.contains piece then follow t rest (place ++ [piece])
      else none
    | _ => none

/-- The place a path leads to. -/
def locate? (t : FileTree) (path : String) : Option (List String) := t.follow (Path.pieces path) []

def lookAt? (t : FileTree) (path : String) : Option FileTree := (t.locate? path).bind t.at?

def hasFile (t : FileTree) (path : String) : Bool := (t.lookAt? path).any isFile

def hasFolder (t : FileTree) (path : String) : Bool := (t.lookAt? path).any isFolder

def has (t : FileTree) (path : String) : Bool := (t.lookAt? path).isSome

def readText (t : FileTree) (path : String) : Except Fault String :=
  match (t.lookAt? path).bind text? with
  | some s => .ok s
  | none => .error .io

/-- The files below a folder with the paths that lead to them through it; a folder's files come in the
order of its entries. -/
def filesBelow (t : FileTree) (path : String) : List (String × String) :=
  match t.lookAt? path with
  | some below => below.files.map fun f => (f.1.foldl Path.join path, f.2)
  | none => []

/-- The path that leads straight to the same place. -/
def canonical? (t : FileTree) (path : String) : Option String := (t.locate? path).map Path.ofComponents

/-- The place that pieces name although nothing needs to be there, its parent being a folder. -/
def slotOf? (t : FileTree) (pieces : List String) : Option (List String) :=
  match pieces.getLast?, t.follow pieces.dropLast [] with
  | some name, some parent =>
    if name = "" || name = "." || name = ".." then none
    else if (t.at? parent).any isFolder then some (parent ++ [name])
    else none
  | _, _ => none

/-- The place of a file that a path names. -/
def slot? (t : FileTree) (path : String) : Option (List String) := t.slotOf? (Path.pieces path)

/-- The place of a folder that a path names, whose closing slashes make no difference. -/
def folderSlot? (t : FileTree) (path : String) : Option (List String) := t.slotOf? (Path.unslashed path)

/-- Writes a file where no folder stands. -/
def writeText (t : FileTree) (path text : String) : Except Fault FileTree :=
  match t.slot? path with
  | none => .error .io
  | some place =>
    if (t.at? place).any isFolder then .error .io else .ok (t.put place (.file text))

/-- Makes the missing folders along the pieces of a path. What was made before a fault stays. -/
def makeAlong : FileTree → List String → List String → Except FileTree FileTree
  | t, [], place => if (t.at? place).any isFolder then .ok t else .error t
  | t, piece :: rest, place =>
    match t.at? place with
    | some (.folder es) =>
      if piece = "" || piece = "." then makeAlong t rest place
      else if piece = ".." then makeAlong t rest place.dropLast
      else
        match es.get? piece with
        | none => makeAlong (t.put (place ++ [piece]) emptyFolder) rest (place ++ [piece])
        | some _ => makeAlong t rest (place ++ [piece])
    | _ => .error t

/-- Makes a folder with all the folders above it. -/
def makeFolders (t : FileTree) (path : String) : Except Fault FileTree :=
  (t.makeAlong (Path.pieces path) []).mapError fun _ => .io

/-- Takes away the folder that a path leads to: first all that it holds, then the folder itself. Where the
path led through what the folder held, it leads nowhere by then, and the empty folder stays; a path that does
not name the folder cannot take it away. -/
def removeFolder (t : FileTree) (path : String) : Except Fault Unit × FileTree :=
  match t.locate? path with
  | none => (.error .io, t)
  | some place =>
    if (t.at? place).any isFile then (.error .io, t)
    else
      let emptied := t.put place emptyFolder
      if !emptied.has path then (.ok (), emptied)
      else if Path.endsInDots path then (.error .io, emptied)
      else (.ok (), t.remove place)

/-- Whether something can be moved to a place: a file gives way to a file, an empty folder to a folder. -/
def givesWay : Option FileTree → FileTree → Bool
  | none, _ => true
  | some (.file _), moved => moved.isFile
  | some (.folder es), moved => moved.isFolder && es.entries.isEmpty

/-- Moves what one path names to where another one says. Nothing can be moved into itself. -/
def rename (t : FileTree) (source target : String) : Option FileTree :=
  match t.folderSlot? source, t.folderSlot? target with
  | some place, some goal =>
    match t.at? place with
    | none => none
    | some moved =>
      if place = goal then some t
      else if place.isPrefixOf goal || !givesWay (t.at? goal) moved then none
      else some ((t.remove place).put goal moved)
  | _, _ => none

end ClassSchema.FileTree
