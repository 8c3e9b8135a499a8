import ClassSchema.Fault
import ClassSchema.Toml.Scalar
import ClassSchema.Toml.Table
/-!
# Reading TOML

A document is a sequence of lines: headers in brackets, pairs of key and value, comments. Lists may
run over several lines, tables in braces may not. A mark of the byte order may come first.
-/
namespace ClassSchema.Toml

/-- Passes over a comment, up to the end of its line. -/
def skipComment (s : List Char) : Option (List Char) :=
  match s with
  | '#' :: rest =>
    let body := rest.takeWhile (· ≠ '\n')
    let body := if body.getLast? = some '\r' then body.dropLast else body
    if body.any isControl then none
    else
      let after := rest.drop body.length
      some after
  | s => some s

/-- Passes over blanks, line breaks and comments. -/
def skipLines : Nat → List Char → Option (List Char)
  | 0, s => some s
  | fuel + 1, s => do
    match ← skipComment (skipBlanks s) with
    | '\n' :: rest => skipLines fuel rest
    | '\r' :: '\n' :: rest => skipLines fuel rest
    | rest => return rest

def isWordEnd (c : Char) : Bool :=
  isLineSpace c || c = ',' || c = ']' || c = '}' || c = '#' || c = '='

/-- How deep lists and tables in braces may nest, and how many parts a key may have. -/
def greatestDepth : Nat := 79

mutual

/-- A value that begins here; `depth` levels may still open. -/
def readValue : Nat → Nat → List Char → Option (Datum × List Char)
  | 0, _, _ => none
  | fuel + 1, depth, s =>
    match s with
    | '"' :: _ | '\x27' :: _ => (readString s).map fun p => (.string (String.ofList p.1), p.2)
    | '[' :: rest =>
      match depth with
      | 0 => none
      | depth + 1 => do
        let (items, rest) ← readItems fuel depth rest
        return (.list items, rest)
    | '{' :: rest =>
      match depth with
      | 0 => none
      | depth + 1 =>
        match skipBlanks rest with
        | '}' :: rest => some (.table .empty, rest)
        | rest => do
          let (pairs, rest) ← readPairs fuel depth rest
          return (.table ⟨entryData (← inlineTable pairs .empty).entries⟩, rest)
    | s => (word? (s.takeWhile (!isWordEnd ·))).map fun d => (d, s.dropWhile (!isWordEnd ·))

/-- The items of a list up to its closing bracket. -/
def readItems : Nat → Nat → List Char → Option (List Datum × List Char)
  | 0, _, _ => none
  | fuel + 1, depth, s => do
    match ← skipLines (s.length + 1) s with
    | ']' :: rest => return ([], rest)
    | s =>
      let (d, rest) ← readValue fuel depth s
      match ← skipLines (rest.length + 1) rest with
      | ',' :: rest =>
        let (ds, rest) ← readItems fuel depth rest
        return (d :: ds, rest)
      | ']' :: rest => return ([d], rest)
      | _ => none

/-- The pairs of a table up to its closing brace, at least one. -/
def readPairs : Nat → Nat → List Char → Option (List (List String × Datum) × List Char)
  | 0, _, _ => none
  | fuel + 1, depth, s => do
    let (path, rest) ← readKey greatestDepth s
    match skipBlanks rest with
    | '=' :: rest =>
      let (d, rest) ← readValue fuel depth (skipBlanks rest)
      match skipBlanks rest with
      | ',' :: rest =>
        let (pairs, rest) ← readPairs fuel depth rest
        return ((path, d) :: pairs, rest)
      | '}' :: rest => return ([(path, d)], rest)
      | _ => none
    | _ => none

end

/-- What a line says, with what follows it on the line. -/
def readStatement (s : List Char) : Option (Statement × List Char) :=
  match s with
  | '[' :: '[' :: rest => do
    let (path, rest) ← readKey greatestDepth rest
    match rest with
    | ']' :: ']' :: rest => return (.listHeader path, rest)
    | _ => none
  | '[' :: rest => do
    let (path, rest) ← readKey greatestDepth rest
    match rest with
    | ']' :: rest => return (.header path, rest)
    | _ => none
  | s => do
    let (path, rest) ← readKey greatestDepth s
    match rest with
    | '=' :: rest =>
      let (d, rest) ← readValue (rest.length + 1) greatestDepth (skipBlanks rest)
      return (.pair path d, rest)
    | _ => none

/-- The statements of a document; each ends its line. -/
def readStatements : Nat → List Char → Option (List Statement)
  | 0, _ => none
  | fuel + 1, s => do
    match ← skipLines (s.length + 1) s with
    | [] => return []
    | s =>
      let (statement, rest) ← readStatement s
      match ← skipComment (skipBlanks rest) with
      | [] => return [statement]
      | '\n' :: rest => return statement :: (← readStatements fuel rest)
      | '\r' :: '\n' :: rest => return statement :: (← readStatements fuel rest)
      | _ => none

/-- The text after a mark of the byte order. -/
def dropMark : List Char → List Char
  | c :: s => if c.toNat = 0xfeff then s else c :: s
  | [] => []

/-- Reads a document. -/
def ofText? (text : String) : Option (Dict Datum) := do
  let s := dropMark text.toList
  let statements ← readStatements (s.length + 1) s
  let root ← build .empty [] statements
  return ⟨entryData root.entries⟩

/-- Reads a document as a value, in which floats that are not finite are null, or says that it is
none. -/
def read (text : String) : Except Fault Value :=
  match ofText? text with
  | some fields => .ok (.table ⟨Datum.entryValues .null fields.entries⟩)
  | none => .error .toml

end ClassSchema.Toml
