import ClassSchema.Template.Node
import ClassSchema.Value.Reader
/-!
# Tags of templates

Readers of what stands between the braces of a tag. A reader takes the longest of what it looks for
from the start of a text; it either finds nothing, so that another one may be tried, or finds something
that cannot stand in a template at all.
-/
namespace ClassSchema.Template

/-- Why a reader gives nothing. -/
inductive Refusal where
  | absent
  | malformed
deriving DecidableEq, Repr

abbrev TagReader := StateT (List Char) (Except Refusal)

namespace TagReader

variable {α : Type}

/-- Tries the second reader where the first finds nothing. -/
def firstOf (a b : TagReader α) : TagReader α := fun s =>
  match a s with
  | .error .absent => b s
  | r => r

/-- Tries readers in order. -/
def oneOf : List (TagReader α) → TagReader α
  | [] => throw .absent
  | r :: rs => firstOf r (oneOf rs)

def optional (r : TagReader α) : TagReader (Option α) := firstOf (some <$> r) (pure none)

/-- Whether something stands here; takes it if so. -/
def isThere (r : TagReader α) : TagReader Bool := do return (← optional r).isSome

/-- Takes nothing, and goes on only where the reader finds nothing. -/
def missing (r : TagReader α) : TagReader Unit := fun s =>
  match r s with
  | .ok _ => .error .absent
  | .error .absent => .ok ((), s)
  | .error .malformed => .error .malformed

/-- As many in a row as there are, up to a number. -/
def atMost : Nat → TagReader α → TagReader (List α)
  | 0, _ => pure []
  | n + 1, r => firstOf (do return (← r) :: (← atMost n r)) (pure [])

/-- As many in a row as there are. -/
def several (r : TagReader α) : TagReader (List α) := do atMost (← get).length r

/-- What a reader gives, with the text that it takes. -/
def written (r : TagReader α) : TagReader (List Char × α) := fun s =>
  match r s with
  | .ok (a, rest) => .ok ((s.take (s.length - rest.length), a), rest)
  | .error e => .error e

/-- The given text. -/
def mark (m : List Char) : TagReader Unit := fun s =>
  if m.isPrefixOf s then .ok ((), s.drop m.length) else .error .absent

/-- Characters of a class, at least one. -/
def chars (p : Char → Bool) : TagReader (List Char) := fun s =>
  match s.takeWhile p with
  | [] => .error .absent
  | t => .ok (t, s.dropWhile p)

end TagReader

open TagReader

def isTagSpace (c : Char) : Bool := c = ' ' || c = '\t' || c = '\n' || c = '\r'

def blanks : TagReader Unit := fun s => .ok ((), s.dropWhile isTagSpace)

/-- A character of names. -/
def isSymbol (c : Char) : Bool :=
  c.isAlphanum || c = '_' || c = '-' || c = '$' || c = ':' || c = '?' || 0x80 ≤ c.toNat

/-- The name of a helper, an option or a block's item. -/
def identifier : TagReader String := do
  let start ← chars isSymbol
  let rest ← optional (chars fun c => isSymbol c || c = '/')
  return String.ofList (start ++ rest.getD [])

/-! ### References -/

def separator : TagReader Unit := firstOf (mark ['/']) (mark ['.'])

/-- A name in brackets, of any characters but a closing one. -/
def bracketed : TagReader String := do
  mark ['[']
  let name ← optional (chars (· ≠ ']'))
  mark [']']
  return String.ofList (name.getD [])

def pathName : TagReader String := firstOf (String.ofList <$> chars isSymbol) bracketed

/-- The name that stands for the item itself. -/
def ownItem : String := "this"

/-- Where a path begins, and the names on it. -/
def path : TagReader (Start × List String) := do
  let _ ← optional (firstOf (mark ownItem.toList *> separator) (mark ['.', '/']))
  let fromTop ← isThere (mark "@root".toList *> separator)
  let told ← isThere (mark ['@'])
  let up ← several (mark ['.', '.'] *> separator)
  let first ← pathName
  let more ← several (separator *> pathName)
  let names := (first :: more).filter (· ≠ ownItem)
  let start :=
    if fromTop then .top
    else if told then if names.isEmpty then .item 0 else .place up.length
    else .item up.length
  return (start, names)

def reference : TagReader Reference := do
  let (text, start, names) ← written path
  return ⟨String.ofList text, start, names⟩

/-! ### Literals -/

def isEscapable (quote c : Char) : Bool := c = quote || ['\\', '/', 'b', 'f', 'n', 'r', 't'].contains c

def isHex (c : Char) : Bool := (hexValue? c).isSome

/-- The rest of a text up to its closing quote, which is left out. -/
def untilQuote (quote : Char) : List Char → Option (List Char)
  | '\\' :: 'u' :: a :: b :: c :: d :: rest =>
    if [a, b, c, d].all isHex then untilQuote quote rest else none
  | '\\' :: c :: rest => if isEscapable quote c then untilQuote quote rest else none
  | c :: rest => if c = quote then some rest else if c = '\\' then none else untilQuote quote rest
  | [] => none

/-- A text in quotes of one kind. -/
def quotedText (quote : Char) : TagReader Unit := do
  mark [quote]
  match untilQuote quote (← get) with
  | some rest => set rest
  | none => throw .absent

def anyQuotedText : TagReader Unit := firstOf (quotedText '"') (quotedText '\x27')

/-- Goes on where no name does. -/
def nameEnds : TagReader Unit := missing (chars isSymbol)

def numberText : TagReader Unit := do
  let _ ← optional (mark ['-'])
  let _ ← chars isDigit
  let _ ← optional (mark ['.'])
  let _ ← optional (chars isDigit)
  let _ ← optional do
    mark ['E']
    let _ ← optional (mark ['-'])
    chars isDigit
  nameEnds

def wordText (w : String) : TagReader Unit := mark w.toList *> nameEnds

/-- Things between two brackets, with commas before all but the first, which may be missing. -/
def listed (opening closing : Char) (r : TagReader Unit) : TagReader Unit := do
  mark [opening]
  blanks
  let _ ← optional r
  let _ ← several (blanks *> mark [','] *> blanks *> r)
  blanks
  mark [closing]

/-- A literal as it is written, whether or not it has a value. -/
def literalText : Nat → TagReader Unit
  | 0 => throw .absent
  | n + 1 =>
    oneOf [anyQuotedText, listed '[' ']' (literalText n),
      listed '{' '}' (anyQuotedText *> blanks *> mark [':'] *> blanks *> literalText n),
      numberText, wordText "null", wordText "true", wordText "false"]

/-- A text in single quotes as it stands in double ones. -/
def requoted : List Char → List Char
  | '\\' :: '\x27' :: rest => '\x27' :: requoted rest
  | '"' :: rest => '\\' :: '"' :: requoted rest
  | c :: rest => c :: requoted rest
  | [] => []

/-- The value of a literal. -/
def literalValue? : List Char → Option Value
  | '\x27' :: text => Value.ofChars? ('"' :: requoted text.dropLast ++ ['"'])
  | text => Value.ofChars? text

def literal : TagReader Value := do
  let (text, _) ← written (literalText (← get).length)
  match literalValue? text with
  | some v => return v.ordered
  | none => throw .malformed

/-! ### Parameters -/

/-- A word that ends the parameters. -/
def keyword : TagReader Unit := firstOf (mark "as".toList) (mark "else".toList) *> blanks *> nameEnds

inductive Argument where
  | param (p : Param)
  | option (name : String) (p : Param)

def Argument.param? : Argument → Option Param
  | .param p => some p
  | .option _ _ => none

def Argument.option? : Argument → Option (String × Param)
  | .param _ => none
  | .option name p => some (name, p)

def argument (param : TagReader Param) : TagReader Argument :=
  firstOf (do return .option (← identifier <* blanks <* mark ['='] <* blanks) (← param))
    (.param <$> param)

/-- What a helper works on; of several options of one name the last counts. -/
structure Arguments where
  params : List Param
  options : List (String × Param)

def Arguments.ofList (l : List Argument) : Arguments :=
  ⟨l.filterMap Argument.param?, (Dict.ofList (l.filterMap Argument.option?)).entries⟩

def arguments (param : TagReader Param) : TagReader Arguments :=
  Arguments.ofList <$> several (blanks *> argument param)

/-- A helper with something to work on. -/
def call (param : TagReader Param) : TagReader (String × Arguments) := do
  let helper ← identifier
  let args ← several (blanks *> argument param)
  if args.isEmpty then throw .absent else return (helper, .ofList args)

/-- A helper's answer, in parentheses. -/
def grouped (param : TagReader Param) : TagReader Param := do
  mark ['(']
  blanks
  let subject ← firstOf (do let (helper, args) ← call param; return .call helper args.params args.options)
    (do return .call (← reference).written [] [])
  blanks
  mark [')']
  return subject

def paramWithin : Nat → TagReader Param
  | 0 => throw .absent
  | n + 1 => do
    missing keyword
    oneOf [.literal <$> literal, .reference <$> reference, grouped (paramWithin n)]

def param : TagReader Param := do paramWithin (← get).length

/-- Names for what a block goes through. -/
def blockNames : TagReader (List String) := do
  mark "as".toList
  blanks
  mark ['|']
  blanks
  let first ← identifier
  blanks
  let second ← optional identifier
  blanks
  mark ['|']
  return first :: second.toList

def opening : TagReader Opening := do
  let helper ← identifier
  let args ← arguments param
  blanks
  let names ← optional blockNames
  return ⟨helper, args.params, args.options, names.getD []⟩

/-! ### Tags -/

inductive Tag where
  | print (subject : Param)
  | run (helper : String) (params : List Param) (options : List (String × Param))
  | opening (o : Opening)
  /-- An `else` that begins a block of its own. -/
  | chain (o : Opening)
  | orElse
  | closing (helper : String)
  | comment
deriving Repr

/-- A tag that goes with its line when it stands there alone. -/
def Tag.ownsLine : Tag → Bool
  | .print _ | .run .. => false
  | _ => true

/-- A tag, and whether it takes away the blanks before it and after it. -/
structure Braced where
  tag : Tag
  trimsBefore : Bool
  trimsAfter : Bool
deriving Repr

/-- The inside of a tag up to its closing braces; a tilde at an end takes away blanks. -/
def braced (closing : List Char) (inside : TagReader Tag) : TagReader Braced := do
  blanks
  let before ← isThere (mark ['~'])
  blanks
  let tag ← inside
  blanks
  let after ← isThere (mark ['~'])
  blanks
  mark closing
  return ⟨tag, before, after⟩

def elseMark : TagReader Unit := firstOf (mark "else".toList) (mark ['^'])

def subject : TagReader Tag := firstOf (.print <$> grouped param) (.print <$> .reference <$> reference)

def expression : TagReader Tag :=
  firstOf (do let (helper, args) ← call param; return .run helper args.params args.options) subject

def openingTag : TagReader Tag := do return .opening (← mark ['#'] *> blanks *> opening)

def closingTag : TagReader Tag := do return .closing (← mark ['/'] *> blanks *> identifier)

/-- A text cut before the first occurrence of a mark, with what follows the mark. -/
def cutAt (m : List Char) : List Char → Option (List Char × List Char)
  | [] => none
  | c :: cs =>
    if m.isPrefixOf (c :: cs) then some ([], (c :: cs).drop m.length)
    else (cutAt m cs).map fun p => (c :: p.1, p.2)

/-- Goes on after the first occurrence of a mark. -/
def skipPast (m : List Char) : TagReader Unit := do
  match cutAt m (← get) with
  | some (_, rest) => set rest
  | none => throw .absent

/-- A comment; one that begins with dashes ends with dashes, if any follow at all. -/
def comment : TagReader Braced := do
  mark ['!']
  firstOf (blanks *> mark ['-', '-'] *> skipPast ['-', '-', '}', '}']) (skipPast ['}', '}'])
  return ⟨.comment, false, false⟩

def closingBraces : List Char := ['}', '}']

/-- A tag after its opening braces. -/
def anyTag : TagReader Braced :=
  oneOf [braced closingBraces (elseMark *> pure .orElse),
    braced closingBraces (do return .chain (← elseMark *> blanks *> opening)),
    braced closingBraces expression,
    mark ['{'] *> braced ('}' :: closingBraces) expression,
    braced closingBraces (mark ['{'] *> blanks *> expression <* blanks <* mark ['}']),
    braced closingBraces (mark ['&'] *> blanks *> subject),
    braced closingBraces openingTag, braced closingBraces closingTag, comment]

end ClassSchema.Template
