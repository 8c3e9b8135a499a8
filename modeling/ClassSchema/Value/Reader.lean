import ClassSchema.Value.Datum
import ClassSchema.Value.Text
/-!
# Reading values from text

`Datum.ofText?` reads a text that is well written, `Value.ofText?` one that holds a value. Numbers
without a fraction or exponent that fit 64 bits are integers; all others are floats, read from at most
as many leading digits as fit 64 bits. Tables come back as written, with repeated names;
`Value.ordered` gives them their usual form.
-/
namespace ClassSchema

def isDigit (c : Char) : Bool := '0' ≤ c ∧ c ≤ '9'

def digitValue (c : Char) : Nat := c.toNat - '0'.toNat

/-- The number written by decimal digits. -/
def digitsValue (ds : List Char) : Nat := ds.foldl (fun n c => 10 * n + digitValue c) 0

def hexValue? (c : Char) : Option Nat :=
  if '0' ≤ c ∧ c ≤ '9' then some (c.toNat - '0'.toNat)
  else if 'a' ≤ c ∧ c ≤ 'f' then some (c.toNat - 'a'.toNat + 10)
  else if 'A' ≤ c ∧ c ≤ 'F' then some (c.toNat - 'A'.toNat + 10)
  else none

namespace Number

def greatestWord : Nat := UInt64.size - 1

/-- Appends digits to `n` while it stays a 64-bit word; gives also the digits left over. -/
def absorb : Nat → List Char → Nat × List Char
  | n, [] => (n, [])
  | n, c :: cs =>
    let next := 10 * n + digitValue c
    if next > greatestWord then (n, c :: cs) else absorb next cs

/-- Powers of ten as floats, as far as they are finite. -/
def tenToThe (k : Nat) : Option Binary64 := if k ≤ 308 then Binary64.ofDecimal? false 1 k else none

/-- Scales a float by a power of ten in single rounded steps; `none` where it leaves the range. -/
def scaleByTen : Nat → Binary64 → Int → Option Binary64
  | 0, x, _ => some x
  | steps + 1, x, e =>
    match tenToThe e.natAbs with
    | some p => if 0 ≤ e then x.times? p else x.over? p
    | none =>
      if x.isZero then some x
      else if 0 ≤ e then none
      else do
        let p ← tenToThe 308
        scaleByTen steps (← x.over? p) (e + 308)

def ofParts (negative : Bool) (word : Nat) (exponent : Int) : Option Number := do
  let x ← Binary64.nearest? false word 1
  let y ← scaleByTen 4 x exponent
  return .float (y.negated negative)

/-- Exponent digits that exceed 31 bits make any number but zero too large or vanish. -/
def ofExponent (negative : Bool) (word : Nat) (start : Int) (minus : Bool) (ds : List Char) :
    Option Number :=
  let e := digitsValue ds
  if e > 0x7fffffff then
    if word ≠ 0 ∧ ¬ minus then none else some (.float (.zero negative))
  else ofParts negative word (if minus then start - e else start + e)

/-- An integer of 64 bits; zero with a sign is a float, and so is one below the signed range. -/
def ofWord (negative : Bool) (word : Nat) : Option Number :=
  if negative then
    if word = 0 ∨ word > 0x8000000000000000 then do
      let x ← Binary64.nearest? true word 1
      return .float (x.negated true)
    else some (.integer (-(word : Int)))
  else some (.integer word)

end Number

/-- The parts of a number as it is written. -/
structure Numeral where
  negative : Bool
  whole : List Char
  /-- The digits after a point. -/
  fraction : Option (List Char)
  /-- The digits of an exponent, and whether it is negative. -/
  exponent : Option (Bool × List Char)
deriving DecidableEq, Repr

namespace Numeral

/-- Digits, at least one. -/
def readDigits (r : List Char) : Option (List Char × List Char) :=
  match r.takeWhile isDigit with
  | [] => none
  | ds => some (ds, r.dropWhile isDigit)

/-- The digits before the point; zero stands alone. -/
def readWhole (r : List Char) : Option (List Char × List Char) :=
  match readDigits r with
  | some ('0' :: _ :: _, _) => none
  | p => p

def readFraction : List Char → Option (Option (List Char) × List Char)
  | '.' :: r => (readDigits r).map fun p => (some p.1, p.2)
  | r => some (none, r)

/-- The digits of an exponent whose mark is read, with its sign. -/
def readPower : List Char → Option ((Bool × List Char) × List Char)
  | '+' :: r => (readDigits r).map fun p => ((false, p.1), p.2)
  | '-' :: r => (readDigits r).map fun p => ((true, p.1), p.2)
  | r => (readDigits r).map fun p => ((false, p.1), p.2)

def readExponent : List Char → Option (Option (Bool × List Char) × List Char)
  | 'e' :: r | 'E' :: r => (readPower r).map fun p => (some p.1, p.2)
  | r => some (none, r)

/-- A number without its sign. -/
def readUnsigned (negative : Bool) (r : List Char) : Option (Numeral × List Char) := do
  let (whole, r) ← readWhole r
  let (fraction, r) ← readFraction r
  let (exponent, r) ← readExponent r
  return (⟨negative, whole, fraction, exponent⟩, r)

/-- The number that a text begins with. -/
def read : List Char → Option (Numeral × List Char)
  | '-' :: r => readUnsigned true r
  | r => readUnsigned false r

/-- The leading digits as a word, and the power of ten that goes with it. -/
def mantissa (n : Numeral) : Nat × Int :=
  let (word, dropped) := Number.absorb 0 n.whole
  match n.fraction with
  | none => (word, dropped.length)
  | some ds =>
    let (next, rest) := Number.absorb word ds
    (next, dropped.length - (ds.length - rest.length : Nat))

/-- The number that is written, unless it is too large. -/
def number? (n : Numeral) : Option Number :=
  match n.fraction, n.exponent, Number.absorb 0 n.whole with
  | none, none, (word, []) => Number.ofWord n.negative word
  | _, none, _ => Number.ofParts n.negative n.mantissa.1 n.mantissa.2
  | _, some (minus, ds), _ => Number.ofExponent n.negative n.mantissa.1 n.mantissa.2 minus ds

end Numeral

namespace Datum

def isSpace (c : Char) : Bool := c = ' ' ∨ c = '\n' ∨ c = '\r' ∨ c = '\t'

def skipSpace (r : List Char) : List Char := r.dropWhile isSpace

def hexUnit? (a b c d : Char) : Option Nat := do
  return (← hexValue? a) * 4096 + (← hexValue? b) * 256 + (← hexValue? c) * 16 + (← hexValue? d)

/-- What a one-letter escape stands for. -/
def unescape? (c : Char) : Option Char :=
  if c = '"' ∨ c = '\\' ∨ c = '/' then some c
  else if c = 'n' then some '\n'
  else if c = 'r' then some '\r'
  else if c = 't' then some '\t'
  else if c = 'b' then some '\x08'
  else if c = 'f' then some '\x0c'
  else none

def isHighUnit (u : Nat) : Bool := 0xD800 ≤ u ∧ u < 0xDC00

def isLowUnit (u : Nat) : Bool := 0xDC00 ≤ u ∧ u < 0xE000

/-- The character of a unit that is no half of a surrogate pair. -/
def unitChar? (u : Nat) : Option Char :=
  if isHighUnit u || isLowUnit u then none else some (Char.ofNat u)

/-- The character of a surrogate pair. -/
def pairChar (high low : Nat) : Char := Char.ofNat (0x10000 + (high - 0xD800) * 1024 + (low - 0xDC00))

/-- A piece of a string as it is written: a character, or a unit given by its number. -/
inductive Piece where
  | char (c : Char)
  | unit (u : Nat)
deriving DecidableEq, Repr

/-- Puts a piece in front of what a reader gives. -/
def withPiece (p : Piece) (r : Option (List Piece × List Char)) : Option (List Piece × List Char) :=
  r.map fun rest => (p :: rest.1, rest.2)

/-- The rest of a string whose opening quote is read, with what follows its closing quote. Control
characters must be escaped. -/
def readString : List Char → Option (List Piece × List Char)
  | [] => none
  | '"' :: r => some ([], r)
  | '\\' :: 'u' :: a :: b :: c :: d :: r => do
    withPiece (.unit (← hexUnit? a b c d)) (readString r)
  | '\\' :: e :: r => do withPiece (.char (← unescape? e)) (readString r)
  | c :: r => if c = '\\' ∨ c.toNat < 0x20 then none else withPiece (.char c) (readString r)

/-- The characters of a string; `high` is the half of a surrogate pair that must be completed. -/
def pieceChars? : Option Nat → List Piece → Option (List Char)
  | none, [] => some []
  | none, .char c :: ps => (pieceChars? none ps).map (c :: ·)
  | none, .unit u :: ps =>
    if isHighUnit u then pieceChars? (some u) ps
    else do return (← unitChar? u) :: (← pieceChars? none ps)
  | some high, .unit low :: ps =>
    if isLowUnit low then (pieceChars? none ps).map (pairChar high low :: ·) else none
  | some _, _ => none

def pieceText? (ps : List Piece) : Option String := (pieceChars? none ps).map String.ofList

def ofPieces (ps : List Piece) : Datum :=
  match pieceText? ps with
  | some s => .string s
  | none => .unreadable

def ofNumeral (n : Numeral) : Datum :=
  match n.number? with
  | some n => .number n
  | none => .unreadable

/-- Puts an entry in front of those of a table; a table with a name that is no text is unreadable. -/
def withEntry (key : List Piece) (d : Datum) (rest : Option (List (String × Datum))) :
    Option (List (String × Datum)) := do
  return (← pieceText? key, d) :: (← rest)

def ofEntries : Option (List (String × Datum)) → Datum
  | some entries => .table ⟨entries⟩
  | none => .unreadable

mutual

/-- A datum at the start of the text. -/
def read : Nat → List Char → Option (Datum × List Char)
  | 0, _ => none
  | fuel + 1, r =>
    match r with
    | 'n' :: 'u' :: 'l' :: 'l' :: r => some (.null, r)
    | 't' :: 'r' :: 'u' :: 'e' :: r => some (.bool true, r)
    | 'f' :: 'a' :: 'l' :: 's' :: 'e' :: r => some (.bool false, r)
    | '"' :: r => do
      let (s, rest) ← readString r
      return (ofPieces s, rest)
    | '[' :: r =>
      match skipSpace r with
      | ']' :: rest => some (.list [], rest)
      | r => do
        let (items, rest) ← readItems fuel r
        return (.list items, rest)
    | '{' :: r =>
      match skipSpace r with
      | '}' :: rest => some (.table ⟨[]⟩, rest)
      | r => do
        let (entries, rest) ← readEntries fuel r
        return (ofEntries entries, rest)
    | r => do
      let (n, rest) ← Numeral.read r
      return (ofNumeral n, rest)

/-- The items of a list up to its end, at least one. -/
def readItems : Nat → List Char → Option (List Datum × List Char)
  | 0, _ => none
  | fuel + 1, r => do
    let (d, rest) ← read fuel r
    match skipSpace rest with
    | ',' :: rest =>
      let (ds, rest) ← readItems fuel (skipSpace rest)
      return (d :: ds, rest)
    | ']' :: rest => return ([d], rest)
    | _ => none

/-- The entries of a table up to its end, at least one. -/
def readEntries : Nat → List Char → Option (Option (List (String × Datum)) × List Char)
  | 0, _ => none
  | fuel + 1, r =>
    match r with
    | '"' :: r => do
      let (key, rest) ← readString r
      match skipSpace rest with
      | ':' :: rest =>
        let (d, rest) ← read fuel (skipSpace rest)
        match skipSpace rest with
        | ',' :: rest =>
          let (es, rest) ← readEntries fuel (skipSpace rest)
          return (withEntry key d es, rest)
        | '}' :: rest => return (withEntry key d (some []), rest)
        | _ => none
      | _ => none
    | _ => none

end

/-- Reads a text that holds exactly one datum. -/
def ofChars? (s : List Char) : Option Datum := do
  let (d, rest) ← read (s.length + 1) (skipSpace s)
  if (skipSpace rest).isEmpty then return d else none

def ofText? (s : String) : Option Datum := ofChars? s.toList

end Datum

namespace Value

/-- Reads a text that holds exactly one value, tables as written. -/
def ofChars? (s : List Char) : Option Value := (Datum.ofChars? s).bind Datum.value?

def ofText? (s : String) : Option Value := ofChars? s.toList

end Value
end ClassSchema
