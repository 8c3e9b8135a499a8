import ClassSchema.Value.Reader
/-!
# TOML scalars

Keys, strings and plain words of TOML text. A word is a truth value, an integer of 64 bits or a float;
digits may be set apart by single underscores.
-/
namespace ClassSchema.Toml

def isBlankChar (c : Char) : Bool := c = ' ' || c = '\t'

def skipBlanks (s : List Char) : List Char := s.dropWhile isBlankChar

/-- A character that must not stand in text as it is. -/
def isControl (c : Char) : Bool := (c.toNat < 0x20 && c ≠ '\t') || c.toNat = 0x7f

def isBareKeyChar (c : Char) : Bool := c.isAlphanum || c = '_' || c = '-'

/-- The number written by hexadecimal digits, if all of them are. -/
def hexNumber? (s : List Char) : Option Nat :=
  s.foldl (fun n c => do return 16 * (← n) + (← hexValue? c)) (some 0)

/-- The character of a code point that is no surrogate. -/
def scalarChar? (s : List Char) : Option Char := do
  let n ← hexNumber? s
  if n < 0xd800 || (0xe000 ≤ n && n < 0x110000) then return Char.ofNat n else none

/-- What a one-letter escape stands for. -/
def unescape? (c : Char) : Option Char :=
  if c = '"' || c = '\\' then some c
  else if c = 'b' then some '\x08'
  else if c = 't' then some '\t'
  else if c = 'n' then some '\n'
  else if c = 'f' then some '\x0c'
  else if c = 'r' then some '\r'
  else none

/-- Puts a character in front of what a reader gives. -/
def withChar (c : Char) (r : Option (List Char × List Char)) : Option (List Char × List Char) :=
  r.map fun p => (c :: p.1, p.2)

/-- The rest of a string on one line, its opening quote being read. -/
def readBasic : List Char → Option (List Char × List Char)
  | [] => none
  | '"' :: rest => some ([], rest)
  | '\\' :: 'u' :: a :: b :: c :: d :: rest => do
    withChar (← scalarChar? [a, b, c, d]) (readBasic rest)
  | '\\' :: 'U' :: a :: b :: c :: d :: e :: f :: g :: h :: rest => do
    withChar (← scalarChar? [a, b, c, d, e, f, g, h]) (readBasic rest)
  | '\\' :: e :: rest => do withChar (← unescape? e) (readBasic rest)
  | c :: rest => if isControl c then none else withChar c (readBasic rest)

/-- The rest of a literal string on one line. -/
def readLiteral : List Char → Option (List Char × List Char)
  | [] => none
  | '\x27' :: rest => some ([], rest)
  | c :: rest => if isControl c then none else withChar c (readLiteral rest)

/-- Drops the line break that a string of several lines may begin with. -/
def dropFirstBreak : List Char → List Char
  | '\r' :: '\n' :: rest => rest
  | '\n' :: rest => rest
  | rest => rest

def isLineSpace (c : Char) : Bool := isBlankChar c || c = '\n' || c = '\r'

/-- The end of a string of several lines: three quotes, before which two more belong to the text. -/
def closing? (quote : Char) (s : List Char) : Option (List Char × List Char) :=
  let run := (s.takeWhile (· = quote)).length
  if 3 ≤ run && run ≤ 5 then some (List.replicate (run - 3) quote, s.drop run) else none

/-- Passes over blanks and line breaks. -/
def skipLineSpace : List Char → List Char
  | '\r' :: '\n' :: rest => skipLineSpace rest
  | c :: rest => if isBlankChar c || c = '\n' then skipLineSpace rest else c :: rest
  | [] => []

/-- What follows a backslash that ends its line: the next text, on whatever line it begins. -/
def joinedLine? (s : List Char) : Option (List Char) :=
  match skipBlanks s with
  | '\n' :: rest | '\r' :: '\n' :: rest => some (skipLineSpace rest)
  | _ => none

/-- The rest of a string of several lines. -/
def readLongBasic : Nat → List Char → Option (List Char × List Char)
  | 0, _ => none
  | fuel + 1, s =>
    match s with
    | [] => none
    | '"' :: rest =>
      match closing? '"' s with
      | some p => some p
      | none => if rest.take 2 = ['"', '"'] then none else withChar '"' (readLongBasic fuel rest)
    | '\\' :: 'u' :: a :: b :: c :: d :: rest => do
      withChar (← scalarChar? [a, b, c, d]) (readLongBasic fuel rest)
    | '\\' :: 'U' :: a :: b :: c :: d :: e :: f :: g :: h :: rest => do
      withChar (← scalarChar? [a, b, c, d, e, f, g, h]) (readLongBasic fuel rest)
    | '\\' :: e :: rest =>
      if isLineSpace e then do readLongBasic fuel (← joinedLine? (e :: rest))
      else do withChar (← unescape? e) (readLongBasic fuel rest)
    | '\r' :: '\n' :: rest => withChar '\n' (readLongBasic fuel rest)
    | '\n' :: rest => withChar '\n' (readLongBasic fuel rest)
    | c :: rest => if isControl c then none else withChar c (readLongBasic fuel rest)

/-- The rest of a literal string of several lines. -/
def readLongLiteral : Nat → List Char → Option (List Char × List Char)
  | 0, _ => none
  | fuel + 1, s =>
    match s with
    | [] => none
    | '\x27' :: rest =>
      match closing? '\x27' s with
      | some p => some p
      | none =>
        if rest.take 2 = ['\x27', '\x27'] then none else withChar '\x27' (readLongLiteral fuel rest)
    | '\r' :: '\n' :: rest => withChar '\n' (readLongLiteral fuel rest)
    | '\n' :: rest => withChar '\n' (readLongLiteral fuel rest)
    | c :: rest => if isControl c then none else withChar c (readLongLiteral fuel rest)

/-- A string of any of the four sorts, if one begins here. -/
def readString (s : List Char) : Option (List Char × List Char) :=
  match s with
  | '"' :: '"' :: '"' :: rest => readLongBasic (rest.length + 1) (dropFirstBreak rest)
  | '"' :: rest => readBasic rest
  | '\x27' :: '\x27' :: '\x27' :: rest => readLongLiteral (rest.length + 1) (dropFirstBreak rest)
  | '\x27' :: rest => readLiteral rest
  | _ => none

/-- One part of a key: bare, or a string on one line. -/
def readKeyPart (s : List Char) : Option (String × List Char) :=
  match s with
  | '"' :: rest => (readBasic rest).map fun p => (String.ofList p.1, p.2)
  | '\x27' :: rest => (readLiteral rest).map fun p => (String.ofList p.1, p.2)
  | s =>
    match s.takeWhile isBareKeyChar with
    | [] => none
    | part => some (String.ofList part, s.dropWhile isBareKeyChar)

/-- A key of one or several parts with dots between them. -/
def readKey : Nat → List Char → Option (List String × List Char)
  | 0, _ => none
  | fuel + 1, s => do
    let (part, rest) ← readKeyPart (skipBlanks s)
    match skipBlanks rest with
    | '.' :: rest =>
      let (parts, rest) ← readKey fuel rest
      return (part :: parts, rest)
    | rest => return ([part], rest)

/-- Digits of a class without their underscores, each of which stands between two digits. -/
def plainDigits (isDigitChar : Char → Bool) : List Char → Option (List Char)
  | [] => none
  | [c] => if isDigitChar c then some [c] else none
  | c :: '_' :: rest =>
    if isDigitChar c then (plainDigits isDigitChar rest).map (c :: ·) else none
  | c :: rest => if isDigitChar c then (plainDigits isDigitChar rest).map (c :: ·) else none

def startsWithZero : List Char → Bool
  | '0' :: _ :: _ => true
  | _ => false

/-- Decimal digits without a superfluous zero at the front. -/
def decimal? (s : List Char) : Option Nat := do
  let ds ← plainDigits Char.isDigit s
  if startsWithZero ds then none else return digitsValue ds

/-- The number written by digits to a base that is at most 16. -/
def based? (base : Nat) (s : List Char) : Option Nat := do
  let isDigitChar := fun c => (hexValue? c).any (· < base)
  let ds ← plainDigits isDigitChar s
  return ds.foldl (fun n c => base * n + ((hexValue? c).getD 0)) 0

def signedWord? (i : Int) : Option Number :=
  if Number.isSignedWord i then some (.integer i) else none

/-- A sign, if there is one, and the rest. -/
def splitSign : List Char → Bool × List Char
  | '+' :: s => (false, s)
  | '-' :: s => (true, s)
  | s => (false, s)

def integer? (s : List Char) : Option Number :=
  match s with
  | '0' :: 'x' :: ds => (based? 16 ds).bind fun n => signedWord? n
  | '0' :: 'o' :: ds => (based? 8 ds).bind fun n => signedWord? n
  | '0' :: 'b' :: ds => (based? 2 ds).bind fun n => signedWord? n
  | s =>
    let (minus, ds) := splitSign s
    (decimal? ds).bind fun n => signedWord? (if minus then -(n : Int) else n)

/-- The exponent after its mark. -/
def exponent? (s : List Char) : Option Int := do
  let (minus, ds) := splitSign s
  let n := digitsValue (← plainDigits Char.isDigit ds)
  return if minus then -(n : Int) else n

/-- A float with a fraction, an exponent or both; only a negative one may be too large. -/
def float? (s : List Char) : Option Datum := do
  let (minus, s) := splitSign s
  let isMark := fun c => c = 'e' || c = 'E'
  let mantissa := s.takeWhile (!isMark ·)
  let power ← match s.dropWhile (!isMark ·) with
    | [] => some 0
    | _ :: e => exponent? e
  let whole := mantissa.takeWhile (· ≠ '.')
  let _ ← decimal? whole
  let wholeDigits ← plainDigits Char.isDigit whole
  let fraction ← match mantissa.dropWhile (· ≠ '.') with
    | [] => some []
    | _ :: f => plainDigits Char.isDigit f
  match Binary64.ofDecimal? minus (digitsValue (wholeDigits ++ fraction))
      (power - fraction.length) with
  | some x => return .number (.float x)
  | none => if minus then return .notFinite (.infinite true) else none

/-- The words that stand for truth values and for what is no finite number. -/
def namedWords : List (String × Datum) :=
  [("true", .bool true), ("false", .bool false), ("inf", .notFinite (.infinite false)),
    ("+inf", .notFinite (.infinite false)), ("-inf", .notFinite (.infinite true)),
    ("nan", .notFinite .undefined), ("+nan", .notFinite .undefined),
    ("-nan", .notFinite .undefined)]

/-- What a plain word stands for. -/
def word? (s : List Char) : Option Datum :=
  match Dict.lookup (String.ofList s) namedWords with
  | some d => some d
  | none =>
    match integer? s with
    | some n => some (.number n)
    | none => if s.any fun c => c = '.' || c = 'e' || c = 'E' then float? s else none

end ClassSchema.Toml
