/-!
# Glob patterns

A pattern matches a whole text: `?` is one character, `*` any run, brackets hold a class of
characters, and a double star that fills a component stands for whole components. Matching fills one
row of answers per token, from the last token to the first, one answer for every end of the text.
-/
namespace ClassSchema.Glob

inductive Token where
  | one (c : Char)
  | any
  | among (ranges : List (Char × Char))
  | except (ranges : List (Char × Char))
  | run
  | components
deriving DecidableEq, Repr

abbrev Pattern := List Token

/-- Single characters and ranges of a class. -/
def ranges : List Char → List (Char × Char)
  | a :: '-' :: b :: rest => (a, b) :: ranges rest
  | a :: rest => (a, a) :: ranges rest
  | [] => []

def starsMessage : String := "wildcards are either regular \x60*\x60 or recursive \x60**\x60"

def componentMessage : String := "recursive wildcards must form a single path component"

def rangeMessage : String := "invalid range pattern"

/-- A class after its opening bracket: its characters and what follows. The first one may be a
closing bracket. -/
def readClass : List Char → Option (List Char × List Char)
  | first :: rest =>
    match rest.dropWhile (· ≠ ']') with
    | _ :: after => some (first :: rest.takeWhile (· ≠ ']'), after)
    | [] => none
  | [] => none

/-- Reads the tokens of a pattern; `fresh` says that a component begins here. -/
def tokens : Nat → Bool → List Char → Except String Pattern
  | 0, _, _ => .ok []
  | _, _, [] => .ok []
  | fuel + 1, _, '?' :: rest => do return .any :: (← tokens fuel false rest)
  | fuel + 1, fresh, '*' :: rest =>
    match rest.takeWhile (· = '*'), rest.dropWhile (· = '*') with
    | [], rest => do return .run :: (← tokens fuel false rest)
    | [_], rest =>
      if !fresh then .error componentMessage
      else
        match rest with
        | [] => .ok [.components]
        | '/' :: rest => do return .components :: (← tokens fuel true rest)
        | _ => .error componentMessage
    | _, _ => .error starsMessage
  | fuel + 1, _, '[' :: '!' :: rest =>
    match readClass rest with
    | some (cs, rest) => do return .except (ranges cs) :: (← tokens fuel false rest)
    | none => .error rangeMessage
  | fuel + 1, _, '[' :: rest =>
    match readClass rest with
    | some (cs, rest) => do return .among (ranges cs) :: (← tokens fuel false rest)
    | none => .error rangeMessage
  | fuel + 1, _, c :: rest => do return .one c :: (← tokens fuel (c = '/') rest)

def parse (s : String) : Except String Pattern := tokens (s.length + 1) true s.toList

def inRanges (ranges : List (Char × Char)) (c : Char) : Bool :=
  ranges.any fun r => r.1 ≤ c && c ≤ r.2

/-- Whether a token that stands for one character takes this one. -/
def Token.takes : Token → Char → Bool
  | .one d, c => c = d
  | .any, _ => true
  | .among rs, c => inRanges rs c
  | .except rs, c => !inRanges rs c
  | _, _ => false

/-- The answers after a run: those of any later end. -/
def runRow : List Bool → List Bool
  | [] => []
  | b :: bs =>
    let later := runRow bs
    (b || later.headD false) :: later

/-- The answers after whole components: here, past a later slash, or at the very end. -/
def componentRow (last : Bool) : List Char → List Bool → List Bool × List Bool
  | c :: cs, b :: bs =>
    let (row, past) := componentRow last cs bs
    let here := (c = '/' && bs.headD false) || past.headD false
    ((b || here || last) :: row, here :: past)
  | _, b :: _ => ([b || last], [false])
  | _, [] => ([], [])

/-- The answers after one character. -/
def charRow (t : Token) : List Char → List Bool → List Bool
  | c :: cs, _ :: bs => (t.takes c && bs.headD false) :: charRow t cs bs
  | _, _ => [false]

def Token.row (t : Token) (s : List Char) (next : List Bool) : List Bool :=
  match t with
  | .run => runRow next
  | .components => (componentRow (next.getLastD false) s next).1
  | t => charRow t s next

/-- For every end of the text whether the pattern matches it. -/
def rows (p : Pattern) (s : List Char) : List Bool :=
  p.foldr (fun t next => t.row s next) (s.map (fun _ => false) ++ [true])

def accepts (p : Pattern) (s : String) : Bool := (rows p s.toList).headD false

end ClassSchema.Glob
