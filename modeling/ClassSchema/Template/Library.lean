import ClassSchema.Fault
import ClassSchema.Schema.Definition
import ClassSchema.Template.Render
import ClassSchema.Template.Source
/-!
# Template library

Templates by name. Each kind of definition has a built-in template, which a source of the same name
replaces.
-/
namespace ClassSchema

/-- Renders a template, given by name, against a value. -/
abbrev Encoder := String → Value → Except Fault String

structure TemplateLibrary where
  templates : Dict (List Template.Node)

namespace Template.Builtin

def member (name : String) : Param := .reference (.member name)

def print (name : String) : Node := .print (member name)

def whenGiven (name : String) (body : List Node) : Node := .block ⟨"if", [member name], [], []⟩ body []

def forEach (name : String) (body : List Node) : Node := .block ⟨"each", [member name], [], []⟩ body []

/-- A description on lines of its own between triple quotes. -/
def blockDescription : Node :=
  whenGiven "description" [.text "\"\"\"\n", print "description", .text "\n\"\"\"\n"]

/-- A description on one indented line between triple quotes. -/
def lineDescription : Node :=
  whenGiven "description" [.text "  \"\"\"", print "description", .text "\"\"\"\n"]

/-- An indented line for each item, under its description. -/
def lines (items text : String) : Node :=
  forEach items [lineDescription, .text "  ", print text, .text "\n"]

def ofKind : Kind → List Node
  | .type =>
    [blockDescription, .text "type ", print "name",
      whenGiven "implements" [.text " implements ", print "implements"],
      .text " \x7b\n", lines "fields" "line", .text "\x7d\n"]
  | .input =>
    [blockDescription, .text "input ", print "name", .text " \x7b\n", lines "fields" "line",
      .text "\x7d\n"]
  | .interface =>
    [blockDescription, .text "interface ", print "name", .text " \x7b\n", lines "fields" "line",
      .text "\x7d\n"]
  | .union =>
    [blockDescription, .text "union ", print "name", .text " = ", print "members", .text "\n"]
  | .enum =>
    [blockDescription, .text "enum ", print "name", .text " \x7b\n", lines "values" "name",
      .text "\x7d\n"]
  | .scalar => [blockDescription, .text "scalar ", print "name", .text "\n"]

end Template.Builtin

namespace TemplateLibrary

def builtin : TemplateLibrary :=
  ⟨.ofList (([.type, .input, .interface, .union, .enum, .scalar] : List Kind).map fun k =>
    (k.word, Template.Builtin.ofKind k))⟩

def has (l : TemplateLibrary) (name : String) : Bool := l.templates.contains name

/-- Adds a template, in place of one of the same name. -/
def register (l : TemplateLibrary) (name source : String) : Except Fault TemplateLibrary :=
  match Template.ofSource? source with
  | some t => .ok ⟨l.templates.insert name t⟩
  | none => .error (.templateText name)

def encoder (l : TemplateLibrary) : Encoder := fun name scope =>
  match l.templates.get? name with
  | none => .error (.template name "no such template")
  | some t =>
    match Template.render t scope with
    | some text => .ok text
    | none => .error (.templateText name)

end TemplateLibrary
end ClassSchema
