import ClassSchema.Class.Index
import ClassSchema.Files.Disk
import ClassSchema.Text.Blank
import ClassSchema.Toml.Reader
/-!
# Loading classes

Every TOML and JSON file below the class folders declares a class or a marker.
-/
namespace ClassSchema

namespace Descriptor

/-- Whether a value of TOML gives nothing. -/
def isEmpty : Value → Bool
  | .table fields => fields.isEmpty
  | .list items => items.isEmpty
  | _ => false

/-- A value that no field of a descriptor may have, in place of floats that are not finite. -/
def unfit : Value := .integer 0

/-- Reads the text of a descriptor file, by the extension of its name. -/
def ofText? (path text : String) : Option Descriptor :=
  if Path.extension? path = some "json" then (shape.ofText? text).bind (decode Value.isNull path)
  else (Toml.ofText? text).bind fun fields => decode isEmpty path (Datum.toValue unfit (.table fields))

/-- Whether a file is a descriptor by its name. -/
def isFileName (path : String) : Bool :=
  match Path.extension? path with
  | some e => e = "toml" || e = "json"
  | none => false

/-- Reads one descriptor file. -/
def ofFile (t : FileTree) (file : String × String) : Except Fault Descriptor :=
  let (path, text) := file
  match ofText? path text with
  | none => .error (.descriptorShape path)
  | some d =>
    if (trimmedChars d.name.toList).isEmpty then
      .error (.descriptor path "'class' must not be empty")
    else .ok { d with path := (t.canonical? path).getD path }

/-- Reads all descriptors of a class folder. -/
def ofFolder (t : FileTree) (folder : String) : Except Fault (List Descriptor) :=
  if t.hasFolder folder then
    traverse (ofFile t) ((t.filesBelow folder).filter fun f => isFileName f.1)
  else .error (.config "project.class_paths" s!"{folder} is not a directory")

end Descriptor

/-- Loads the classes of several folders. -/
def Index.load (t : FileTree) (folders : List String) : Except Fault Index :=
  match traverse (Descriptor.ofFolder t) folders with
  | .error e => .error e
  | .ok found => ofDescriptors found.flatten

end ClassSchema
