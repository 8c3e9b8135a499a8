import ClassSchema.Files.Tree
/-!
# Changes between file trees

What has to be done to one tree to make it the other: removals, from the innermost outwards, then
folders and files, from the outermost inwards.
-/
namespace ClassSchema

inductive Change where
  | removeFile (place : List String)
  | removeFolder (place : List String)
  | makeFolder (place : List String)
  | writeFile (place : List String) (text : String)
deriving DecidableEq, Repr

namespace FileTree

/-- What stands at a place of one tree and has to go, since the other has nothing of its sort there. -/
def removal (new : FileTree) (p : List String × FileTree) : Option Change :=
  match p.2, new.at? p.1 with
  | .file _, some (.file _) => none
  | .folder _, some (.folder _) => none
  | .file _, _ => some (.removeFile p.1)
  | .folder _, _ => some (.removeFolder p.1)

/-- What stands at a place of one tree and has to be made, since the other lacks it. -/
def addition (old : FileTree) (p : List String × FileTree) : Option Change :=
  match p.2, old.at? p.1 with
  | .file s, some (.file t) => if s = t then none else some (.writeFile p.1 s)
  | .file s, _ => some (.writeFile p.1 s)
  | .folder _, some (.folder _) => none
  | .folder _, _ => some (.makeFolder p.1)

def changes (old new : FileTree) : List Change :=
  old.places.reverse.filterMap (removal new) ++ new.places.filterMap (addition old)

end FileTree
end ClassSchema
