import ClassSchema.Files.Disk
import ClassSchema.Text.Blank
import ClassSchema.Value.Decoder
/-!
# Signature cache

Remembered signatures by key, kept in memory and, if the cache has a path, in a file. A change is made
in memory first and then written out as a whole; what changes nothing is not written.
-/
namespace ClassSchema

structure SignatureCache where
  path : Option String
  entries : Dict String
deriving Repr

/-- Files, and the cache that is kept in one of them. -/
structure StoreState where
  tree : FileTree
  cache : SignatureCache

/-- Work on files and cache; what was done before a fault stays done. -/
abbrev Storing := EStateM Fault StoreState

namespace Storing

/-- Work that is undone if it fails; whether that can be done makes no difference to the fault. -/
def orUndo (work : Storing α) (undo : Storing Unit) : Storing α := fun s =>
  match work s with
  | .ok a s => .ok a s
  | .error e s =>
    match undo s with
    | .ok () s => .error e s
    | .error _ s => .error e s

/-- Works through a list up to the first fault. -/
def each (f : α → Storing Unit) : List α → Storing Unit
  | [] => pure ()
  | x :: xs => do
    f x
    each f xs

/-- Works through a list up to the first fault, and gives what each step gives. -/
def collect (f : α → Storing β) : List α → Storing (List β)
  | [] => pure []
  | x :: xs => do
    let y ← f x
    let ys ← collect f xs
    return y :: ys

end Storing

namespace SignatureCache

/-- A cache that is kept in no file. -/
def inMemory : SignatureCache := ⟨none, .empty⟩

/-- The entries that a cache file holds; one of blanks only holds none. -/
def readEntries (text : String) : Except Fault (Dict String) :=
  if (trimmedChars text.toList).isEmpty then .ok .empty
  else
    match (Value.ofText? text).bind (Value.asDict Value.asString) with
    | some entries => .ok entries
    | none => .error .json

/-- Opens the cache at a path; a file that is missing holds nothing. -/
def openAt (t : FileTree) (path : String) : Except Fault SignatureCache :=
  if t.hasFile path then
    match t.readText path with
    | .error e => .error e
    | .ok text =>
      match readEntries text with
      | .error e => .error e
      | .ok entries => .ok ⟨some path, entries⟩
  else .ok ⟨some path, .empty⟩

/-- The text of a cache file. -/
def text (c : SignatureCache) : String := (Value.table (c.entries.map .string)).prettyText

/-- Writes the cache to its file, if it has one. The folders above the file are made first, and stay if the
file cannot be written. -/
def flush (c : SignatureCache) (t : FileTree) : Except FileTree FileTree :=
  match c.path with
  | none => .ok t
  | some path =>
    match t.makeAlong (Path.pieces (Path.parent path)) [] with
    | .error left => .error left
    | .ok made =>
      match made.writeText path c.text with
      | .error _ => .error made
      | .ok t => .ok t

/-- Puts other entries into the cache and writes them out. -/
def replace (entries : Dict String) : Storing Unit := fun s =>
  let cache := { s.cache with entries }
  match cache.flush s.tree with
  | .ok tree => .ok () ⟨tree, cache⟩
  | .error tree => .error .io ⟨tree, cache⟩

def get? (c : SignatureCache) (key : String) : Option String := c.entries.get? key

def put (key value : String) : Storing Unit := fun s =>
  if s.cache.get? key = some value then .ok () s
  else replace (s.cache.entries.insert key value) s

def delete (key : String) : Storing Unit := fun s =>
  if s.cache.entries.contains key then replace (s.cache.entries.erase key) s else .ok () s

/-- Forgets everything, and writes that out even if there was nothing. -/
def clear : Storing Unit := replace .empty

/-- The key of an artifact of a schema. -/
def keyOf (schema artifact : String) : String := schema ++ ":" ++ artifact

end SignatureCache
end ClassSchema
