/-!
# Blank characters

White space as the Unicode property has it, with trimming at both ends of a text.
-/
namespace ClassSchema

/-- A character with the white-space property. -/
def isBlank (c : Char) : Bool :=
  c = ' ' || '\t' ≤ c && c ≤ '\r' || c.toNat = 0x85 || c.toNat = 0xA0 || c.toNat = 0x1680 ||
  0x2000 ≤ c.toNat && c.toNat ≤ 0x200A || c.toNat = 0x2028 || c.toNat = 0x2029 ||
  c.toNat = 0x202F || c.toNat = 0x205F || c.toNat = 0x3000

/-- Drops the characters of a class from the end. -/
def dropLastWhile (p : Char → Bool) (s : List Char) : List Char := (s.reverse.dropWhile p).reverse

/-- A text without the blanks at its ends. -/
def trimmedChars (s : List Char) : List Char := dropLastWhile isBlank (s.dropWhile isBlank)

def trimmed (s : String) : String := String.ofList (trimmedChars s.toList)

end ClassSchema
