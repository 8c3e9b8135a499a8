import ClassSchema.Files.Disk
import ClassSchema.Glob.Pattern
/-!
# Globs over files

A path pattern is matched component by component against a file tree. A component without wildcards
is followed like a path, one with wildcards is tried on every entry of a folder, and a double star
stands for the entries at any depth below.
-/
namespace ClassSchema.Glob

/-- A component without wildcards as plain text. -/
def plain? : Pattern → Option (List Char)
  | [] => some []
  | .one c :: rest => (plain? rest).map (c :: ·)
  | _ => none

def isDeep (p : Pattern) : Bool := p.contains .components

/-- The places of files that the components match, starting from a place. -/
def filesFrom (t : FileTree) : List Pattern → List String → List (List String)
  | [], place => if (t.at? place).any FileTree.isFile then [place] else []
  | p :: rest, place =>
    match t.at? place with
    | some (.folder es) =>
      match plain? p with
      | some name =>
        match t.follow [String.ofList name] place with
        | some next => filesFrom t rest next
        | none => []
      | none =>
        if isDeep p then deepFrom t rest place
        else
          let dots := if p.head? = some (.one '.') then [".", ".."].filter (accepts p) else []
          es.keys.flatMap (fun name => if accepts p name then filesFrom t rest (place ++ [name]) else []) ++
            dots.flatMap fun name =>
              filesFrom t rest (if name = ".." then place.dropLast else place)
    | _ => []
where
  /-- The matches at any depth below a place; the next component is tried on names only. -/
  deepFrom (t : FileTree) : List Pattern → List String → List (List String)
    | [], _ => []
    | p :: rest, place =>
      if isDeep p then deepFrom t rest place
      else
        (((t.at? place).map FileTree.places).getD []).flatMap fun below =>
          match below.1.getLast? with
          | some name => if accepts p name then filesFrom t rest (place ++ below.1) else []
          | none => []

/-- The patterns of the components of a path; an empty piece at the end is left out. -/
def componentPatterns (path : String) : Except String (List Pattern) :=
  let pieces := Path.pieces path
  let pieces := if pieces.getLast? = some "" then pieces.dropLast else pieces
  traverse parse (if Path.isAbsolute path then pieces.drop 1 else pieces)

/-- The canonical paths of the files that an absolute path pattern matches. A pattern that ends in a
slash asks for folders and so matches no file. -/
def files (t : FileTree) (path : String) : Except String (List String) :=
  match parse path with
  | .error e => .error e
  | .ok _ =>
    match componentPatterns path with
    | .error e => .error e
    | .ok ps =>
      if path.toList.getLast? = some '/' then .ok []
      else .ok ((filesFrom t ps []).map Path.ofComponents)

end ClassSchema.Glob
