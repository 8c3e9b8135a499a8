import ClassSchema.Schema.Basic
/-!
# Scopes

What a template is given to render a definition: names, escaped descriptions and finished lines. The
line of an output field carries its resolver plan in a directive, the line of an input field its
default as a literal.
-/
namespace ClassSchema.Artifact

/-- Three quotes inside a block string get a backslash before them. -/
def escapeBlock : List Char → List Char
  | '"' :: '"' :: '"' :: rest => '\\' :: '"' :: '"' :: '"' :: escapeBlock rest
  | c :: rest => c :: escapeBlock rest
  | [] => []

def blockString (s : String) : String := String.ofList (escapeBlock s.toList)

/-- A description as a template prints it, or null. -/
def describe (description : Option String) : Value := .ofString? (description.map blockString)

/-- Texts with a separator between them. -/
def separated (sep : List Char) : List (List Char) → List Char
  | [] => []
  | [s] => s
  | s :: rest => s ++ sep ++ separated sep rest

def argumentChars (a : Argument) : List Char := a.name.toList ++ ':' :: ' ' :: a.type.toList

/-- Name, arguments and type of a field. -/
def signatureChars (name : String) (args : List Argument) (type : String) : List Char :=
  let listed := match args with
    | [] => []
    | args => '(' :: separated [',', ' '] (args.map argumentChars) ++ [')']
  name.toList ++ listed ++ ':' :: ' ' :: type.toList

/-- The name of the directive that carries a plan. -/
def resolverDirective : List Char := "resolver".toList

/-- A plan's text as the argument of a directive. -/
def directiveChars (p : Plan) : List Char :=
  ' ' :: '@' :: resolverDirective ++ "(encoded: ".toList ++ Value.quoted p.text.toList ++ [')']

def fieldLine (f : Field) : List Char :=
  signatureChars f.name f.args f.type ++ match f.resolver with
    | none => []
    | some p => directiveChars p

/-- The type of an input's field; empty where there is no such field. -/
def fieldTypeIn (s : Schema) (base key : String) : String :=
  match s.get? base with
  | some (.input i) => ((i.fields.get? key).map (·.type)).getD ""
  | _ => ""

/-- Whether a text is written bare in a position of a type: as a value of an enum. -/
def isBare (s : Schema) (base text : String) : Bool :=
  match s.get? base with
  | some (.enum _) => isGraphName text
  | _ => false

mutual

/-- The literal of a value in a position of a type. Items stand in a position of the base type, the
members of a table in positions of the input's fields. -/
def literal (s : Schema) (type : String) : Value → List Char
  | .string t => if isBare s (baseType type) t then t.toList else Value.quoted t.toList
  | .list items => '[' :: literalItems s (baseType type) items ++ [']']
  | .table ⟨entries⟩ => '{' :: literalEntries s (baseType type) entries ++ ['}']
  | .null => ['n', 'u', 'l', 'l']
  | .bool true => ['t', 'r', 'u', 'e']
  | .bool false => ['f', 'a', 'l', 's', 'e']
  | .number n => n.chars

def literalItems (s : Schema) (base : String) : List Value → List Char
  | [] => []
  | [v] => literal s base v
  | v :: vs => literal s base v ++ ',' :: ' ' :: literalItems s base vs

def literalEntries (s : Schema) (base : String) : List (String × Value) → List Char
  | [] => []
  | [(key, v)] => key.toList ++ ':' :: ' ' :: literal s (fieldTypeIn s base key) v
  | (key, v) :: es =>
    key.toList ++ ':' :: ' ' :: literal s (fieldTypeIn s base key) v ++
      ',' :: ' ' :: literalEntries s base es

end

def inputLine (s : Schema) (f : InputField) : List Char :=
  signatureChars f.name [] f.type ++ match f.default with
    | none => []
    | some v => ' ' :: '=' :: ' ' :: literal s f.type v

/-- A line under its description. -/
def lineScope (description : Option String) (line : List Char) : Value :=
  .ofPairs [("description", describe description), ("line", .string (String.ofList line))]

def joinedNames (sep : String) (names : List String) : String :=
  String.ofList (separated sep.toList (names.map String.toList))

/-- The entries that every scope has. -/
def headEntries (name : String) (description : Option String) : List (String × Value) :=
  [("name", .string name), ("description", describe description)]

def valueScope (e : EnumValue) : Value := .ofPairs (headEntries e.name e.description)

/-- The scope of a definition; the schema tells what the defaults of inputs refer to. -/
def scope (s : Schema) : Definition → Value
  | .object o =>
    .ofPairs (headEntries o.name o.description ++
      [("implements",
          if o.interfaces.isEmpty then .null else .string (joinedNames " & " o.interfaces)),
        ("fields", .list (o.fields.values.map fun f => lineScope f.description (fieldLine f)))])
  | .interface i =>
    .ofPairs (headEntries i.name i.description ++
      [("fields", .list (i.fields.values.map fun f =>
          lineScope f.description (signatureChars f.name f.args f.type)))])
  | .input i =>
    .ofPairs (headEntries i.name i.description ++
      [("fields", .list (i.fields.values.map fun f => lineScope f.description (inputLine s f)))])
  | .union u =>
    .ofPairs (headEntries u.name u.description ++
      [("members", .string (joinedNames " | " u.members))])
  | .enum e =>
    .ofPairs (headEntries e.name e.description ++ [("values", .list (e.values.map valueScope))])
  | .scalar t => .ofPairs (headEntries t.name t.description)

end ClassSchema.Artifact
