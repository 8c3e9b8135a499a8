import ClassSchema.Resolver.Plan
import ClassSchema.Text.Word
/-!
# Reading directives

Finds the fields of a generated text that carry a resolver plan. A field begins at the start of a
line: a name, arguments in parentheses perhaps, a colon, a type, and then the directive with the plan
as a quoted text. What does not fit is passed over.
-/
namespace ClassSchema.Artifact

/-- A field name with the quoted text of its plan. -/
structure Directive where
  field : List Char
  quoted : List Char
deriving DecidableEq, Repr

def skipBlanks (s : List Char) : List Char := s.dropWhile isBlank

/-- What follows a given beginning. -/
def after? : List Char → List Char → Option (List Char)
  | [], s => some s
  | _ :: _, [] => none
  | p :: ps, c :: cs => if p = c then after? ps cs else none

/-- Passes over arguments in parentheses, if there are any. -/
def skipArguments : List Char → Option (List Char)
  | '(' :: s =>
    match s.dropWhile (· ≠ ')') with
    | [] => none
    | _ :: rest => some rest
  | s => some s

/-- The rest of a quoted text whose opening quote is read, up to its closing quote, and what follows.
A backslash goes with the next character, which must not be a line feed. -/
def restOfQuoted : List Char → Option (List Char × List Char)
  | [] => none
  | '"' :: rest => some (['"'], rest)
  | '\\' :: c :: rest =>
    if c = '\n' then none else (restOfQuoted rest).map fun p => ('\\' :: c :: p.1, p.2)
  | c :: rest => if c = '\\' then none else (restOfQuoted rest).map fun p => (c :: p.1, p.2)

/-- The directive of a field that begins here, and what follows it. -/
def readDirective (s : List Char) : Option (Directive × List Char) := do
  let s := skipBlanks s
  let field := s.takeWhile isWordChar
  if field.isEmpty then failure
  let s ← skipArguments (s.dropWhile isWordChar)
  let s ← after? [':'] (skipBlanks s)
  let s := (skipBlanks s).dropWhile fun c => c ≠ '@' && c ≠ '\n'
  let s ← after? "@resolver(encoded:".toList s
  let s ← after? ['"'] (skipBlanks s)
  let (quoted, s) ← restOfQuoted s
  let s ← after? [')'] s
  return (⟨field, '"' :: quoted⟩, s)

/-- The directives of a text from left to right. The first argument counts the characters that a
directive already found still takes, the second says that a line begins here. -/
def scanDirectives : Nat → Bool → List Char → List Directive
  | _, _, [] => []
  | skip + 1, _, c :: cs => scanDirectives skip (c = '\n') cs
  | 0, fresh, c :: cs =>
    match if fresh then readDirective (c :: cs) else none with
    | some (d, rest) => d :: scanDirectives (cs.length - rest.length) (c = '\n') cs
    | none => scanDirectives 0 (c = '\n') cs

def directives (source : String) : List Directive := scanDirectives 0 true source.toList

/-- The plan that a directive carries. -/
def Directive.plan? (d : Directive) : Option Plan :=
  ((Value.ofChars? d.quoted).bind Value.string?).bind Plan.ofText?

def Directive.entry (d : Directive) : Except Fault (String × Plan) :=
  match d.plan? with
  | some p => .ok (String.ofList d.field, p)
  | none => .error .json

/-- The plans of a generated text by field; the last of several for one field counts. -/
def resolversIn (source : String) : Except Fault (Dict Plan) :=
  match traverse Directive.entry (directives source) with
  | .error e => .error e
  | .ok entries => .ok (.ofList entries)

end ClassSchema.Artifact
