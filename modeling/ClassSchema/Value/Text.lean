import ClassSchema.Value.Basic
/-!
# Values as text

The compact layout has no blanks; the pretty one breaks lines and indents by two. In a string only the
quote, the backslash and characters below the blank are escaped.
-/
namespace ClassSchema

namespace Number

def chars : Number → List Char
  | .integer i => if i < 0 then '-' :: Nat.toDigits 10 i.natAbs else Nat.toDigits 10 i.natAbs
  | .float x => x.numeral

def text (n : Number) : String := String.ofList n.chars

end Number

namespace Value

def hexDigit (n : Nat) : Char := "0123456789abcdef".toList.getD n '0'

/-- A character as it stands between the quotes. -/
def escapedChar (c : Char) : List Char :=
  if c = '"' then ['\\', '"']
  else if c = '\\' then ['\\', '\\']
  else if c = '\n' then ['\\', 'n']
  else if c = '\r' then ['\\', 'r']
  else if c = '\t' then ['\\', 't']
  else if c = '\x08' then ['\\', 'b']
  else if c = '\x0c' then ['\\', 'f']
  else if c.toNat < 0x20 then
    ['\\', 'u', '0', '0', hexDigit (c.toNat / 16), hexDigit (c.toNat % 16)]
  else [c]

def escaped (s : List Char) : List Char := s.flatMap escapedChar

/-- A string with its quotes. -/
def quoted (s : List Char) : List Char := '"' :: escaped s ++ ['"']

mutual

def chars : Value → List Char
  | .null => ['n', 'u', 'l', 'l']
  | .bool true => ['t', 'r', 'u', 'e']
  | .bool false => ['f', 'a', 'l', 's', 'e']
  | .number n => n.chars
  | .string s => quoted s.toList
  | .list items => '[' :: itemChars items ++ [']']
  | .table ⟨entries⟩ => '{' :: entryChars entries ++ ['}']

/-- Items with commas between them. -/
def itemChars : List Value → List Char
  | [] => []
  | [v] => v.chars
  | v :: vs => v.chars ++ ',' :: itemChars vs

/-- Entries with commas between them. -/
def entryChars : List (String × Value) → List Char
  | [] => []
  | [(k, v)] => quoted k.toList ++ ':' :: v.chars
  | (k, v) :: es => quoted k.toList ++ ':' :: (v.chars ++ ',' :: entryChars es)

end

/-- The compact text of a value. -/
def text (v : Value) : String := String.ofList v.chars

def newline (depth : Nat) : List Char := '\n' :: List.replicate (2 * depth) ' '

mutual

/-- The pretty layout of a value that stands `depth` levels deep. -/
def prettyChars (depth : Nat) : Value → List Char
  | .list [] => ['[', ']']
  | .list items => '[' :: prettyItems (depth + 1) items ++ newline depth ++ [']']
  | .table ⟨[]⟩ => ['{', '}']
  | .table ⟨entries⟩ => '{' :: prettyEntries (depth + 1) entries ++ newline depth ++ ['}']
  | .null => ['n', 'u', 'l', 'l']
  | .bool true => ['t', 'r', 'u', 'e']
  | .bool false => ['f', 'a', 'l', 's', 'e']
  | .number n => n.chars
  | .string s => quoted s.toList

def prettyItems (depth : Nat) : List Value → List Char
  | [] => []
  | [v] => newline depth ++ v.prettyChars depth
  | v :: vs => newline depth ++ v.prettyChars depth ++ ',' :: prettyItems depth vs

def prettyEntries (depth : Nat) : List (String × Value) → List Char
  | [] => []
  | [(k, v)] => newline depth ++ quoted k.toList ++ ':' :: ' ' :: v.prettyChars depth
  | (k, v) :: es =>
    newline depth ++ quoted k.toList ++ ':' :: ' ' :: v.prettyChars depth ++ ',' :: prettyEntries depth es

end

/-- The pretty text of a value, ended by a line break. -/
def prettyText (v : Value) : String := String.ofList (v.prettyChars 0 ++ ['\n'])

end Value
end ClassSchema
