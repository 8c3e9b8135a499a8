import ClassSchema.Name
/-!
# Paths

A path is text with slashes. Two paths are the same when their components are: repeated slashes, a
closing slash and dots inside make no difference, a leading dot does.
-/
namespace ClassSchema.Path

/-- A text cut at every occurrence of a character. -/
def splitAt (sep : Char) : List Char → List (List Char)
  | [] => [[]]
  | c :: cs =>
    if c = sep then [] :: splitAt sep cs
    else
      match splitAt sep cs with
      | [] => [[c]]
      | part :: parts => (c :: part) :: parts

/-- The parts between slashes, empty ones included. -/
def pieces (path : String) : List String := (splitAt '/' path.toList).map String.ofList

def isAbsolute (path : String) : Bool := path.toList.head? = some '/'

/-- The parts that name something; only a dot at the very front counts. -/
def components (path : String) : List String :=
  match pieces path with
  | [] => []
  | first :: rest =>
    (if first = "" then (if rest.isEmpty then [] else ["/"]) else [first]) ++
      rest.filter fun p => p ≠ "" && p ≠ "."

def same (p q : String) : Bool := components p = components q

/-- A path below `base`, unless it is absolute. -/
def join (base path : String) : String :=
  if isAbsolute path then path
  else if base = "" then path
  else if base.toList.getLast? = some '/' then base ++ path
  else base ++ "/" ++ path

/-- The last component, unless it leads upwards. -/
def fileName? (path : String) : Option String :=
  match (components path).getLast? with
  | none => none
  | some name => if name = ".." || name = "/" || name = "." then none else some name

/-- A file name cut at its last dot, a leading one aside. -/
def splitExtension (name : String) : String × Option String :=
  let back := name.toList.reverse
  let tail := back.takeWhile (· ≠ '.')
  match back.dropWhile (· ≠ '.') with
  | '.' :: stem =>
    if stem.isEmpty then (name, none)
    else (String.ofList stem.reverse, some (String.ofList tail.reverse))
  | _ => (name, none)

def extension? (path : String) : Option String :=
  (fileName? path).bind fun name => (splitExtension name).2

def stem? (path : String) : Option String := (fileName? path).map fun name => (splitExtension name).1

/-- The parts of a path from the last that names something to the first. -/
def backwards (path : String) : List String :=
  (pieces path).reverse.dropWhile fun p => p = "" || p = "."

/-- The path without its last component. -/
def parent (path : String) : String := String.intercalate "/" ((backwards path).drop 1).reverse

/-- The path with an extension added to the name it ends in, if it ends in one. -/
def addExtension? (path extension : String) : Option String :=
  (fileName? path).map fun _ =>
    String.intercalate "/" (backwards path).reverse ++ "." ++ extension

/-- The pieces of a path without the empty ones that closing slashes leave behind. -/
def unslashed (path : String) : List String := ((pieces path).reverse.dropWhile (· = "")).reverse

/-- Whether a path leads to a folder without naming it: it ends in dots, or has no names at all. -/
def endsInDots (path : String) : Bool := (unslashed path).getLast?.all fun p => p = "." || p = ".."

/-- A name that stands for one entry of a folder. -/
def isPlainName (name : String) : Bool :=
  name ≠ "" && name ≠ "." && name ≠ ".." && !name.toList.contains '/'

/-- An absolute path with the given components. -/
def ofComponents (names : List String) : String := "/" ++ String.intercalate "/" names

end ClassSchema.Path
