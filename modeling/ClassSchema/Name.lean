/-!
# Names

Spellings derived from a name: Pascal and camel case, the last part of a dotted class name, a naive
English plural, and the syntax of GraphQL names. Case changes touch ASCII letters only.
-/
namespace ClassSchema

/-- A character that ends a word inside a name. -/
def isNameBreak (c : Char) : Bool := c = '_' || c = '-' || c = ' ' || c = '.'

/-- A name of capitals, underscores and hyphens only is shouted, and Pascal case calms it down. -/
def isShouted (s : List Char) : Bool := s.all fun c => c.isUpper || c = '_' || c = '-'

/-- Pascal case of the rest of a name; `start` says that a word begins. -/
def pascalChars (calm : Bool) : Bool → List Char → List Char
  | _, [] => []
  | start, c :: cs =>
    if isNameBreak c then pascalChars calm true cs
    else (if start then c.toUpper else if calm then c.toLower else c) :: pascalChars calm false cs

/-- Breaks dropped, each word begun with a capital. -/
def pascalCase (s : String) : String :=
  String.ofList (pascalChars (isShouted s.toList) true s.toList)

/-- Pascal case with a small first letter. -/
def camelCase (s : String) : String :=
  match (pascalCase s).toList with
  | [] => ""
  | c :: cs => String.ofList (c.toLower :: cs)

/-- What follows the last dot. -/
def shortName (name : String) : String :=
  String.ofList (name.toList.reverse.takeWhile (· ≠ '.')).reverse

/-- Whether the text ends in the given letters. -/
def endsIn (s : List Char) (ending : String) : Bool := s.reverse.take ending.length = ending.toList.reverse

/-- The plural used in the names of list operations. -/
def plural (name : String) : String :=
  let s := name.toList
  if endsIn s "y" && !(["ay", "ey", "oy", "uy"].any (endsIn s ·)) then
    String.ofList s.dropLast ++ "ies"
  else if ["s", "x", "ch", "sh"].any (endsIn s ·) then name ++ "es"
  else name ++ "s"

def isNameStart (c : Char) : Bool := c = '_' || c.isAlpha

def isNameChar (c : Char) : Bool := c = '_' || c.isAlphanum

/-- A GraphQL name: a letter or underscore, then letters, digits and underscores. -/
def isGraphName (s : String) : Bool :=
  match s.toList with
  | [] => false
  | c :: cs => isNameStart c && cs.all isNameChar

end ClassSchema
