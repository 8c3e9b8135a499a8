import ClassSchema.Text.Hidden
/-!
# Quoted lists of names

How a message shows a list of names: in brackets, each in quotes, with quotes, backslashes and
characters that do not show escaped.
-/
namespace ClassSchema

/-- A character inside the quotes of a shown name. -/
def shownChar (c : Char) : List Char :=
  if c = '"' then ['\\', '"']
  else if c = '\\' then ['\\', '\\']
  else if c = '\n' then ['\\', 'n']
  else if c = '\r' then ['\\', 'r']
  else if c = '\t' then ['\\', 't']
  else if c.toNat = 0 then ['\\', '0']
  else if isHidden c then
    '\\' :: 'u' :: '{' :: Nat.toDigits 16 c.toNat ++ ['}']
  else [c]

def shownName (s : String) : List Char := '"' :: s.toList.flatMap shownChar ++ ['"']

/-- A list of names as messages show it. -/
def shownNames (names : List String) : String :=
  String.ofList ('[' :: [',', ' '].intercalate (names.map shownName) ++ [']'])

end ClassSchema
