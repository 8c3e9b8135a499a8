/-!
# Suggestions for misspelled names

`suggest?` picks, of the candidates that hold the letters of a query in their order, the one with the
best score, the last of several. The score rewards letters at the start of a word and letters next
to each other. One board of cells serves all candidates of a suggestion in turn and is not wiped
between them.
-/
namespace ClassSchema.Suggestion

inductive Letter where
  | outside
  | hardBreak
  | softBreak
  | digit
  | upper
  | lower
deriving DecidableEq

def Letter.of (c : Char) : Letter :=
  if c.toNat = 0 then .outside
  else if " /\\|()[]\x7b\x7d".toList.contains c then .hardBreak
  else if '!' ≤ c && c ≤ '\x27' || '*' ≤ c && c ≤ '.' || ':' ≤ c && c ≤ '@' ||
    '^' ≤ c && c ≤ '\x60' || c = '~' then .softBreak
  else if c.isDigit then .digit
  else if c.isUpper then .upper
  else .lower

/-- What a character earns by its place after the one before it. -/
def placeBonus (before here : Letter) : Int :=
  match before, here with
  | .outside, _ | .hardBreak, _ => 8
  | .softBreak, _ => 7
  | .lower, .upper | .digit, .upper => 6
  | _, _ => 0

/-- Place bonuses of a candidate; the first counts twice. -/
def placeBonuses (candidate : List Char) : List Int :=
  let sorts := candidate.map Letter.of
  match List.zipWith placeBonus (.outside :: sorts) sorts with
  | [] => []
  | b :: bs => 2 * b :: bs

/-- How letters are compared: a query with a capital minds case. -/
def mindsCase (query : List Char) : Bool := query.any Char.isUpper

def agrees (exact : Bool) (a b : Char) : Bool :=
  if exact then a = b else a.toLower = b.toLower

/-- The leftmost places of the query's letters, counted from `place`. -/
def firstPlaces (exact : Bool) : Nat → List Char → List Char → Option (List Nat)
  | _, [], _ => some []
  | _, _ :: _, [] => none
  | place, q :: qs, c :: cs =>
    if agrees exact q c then (firstPlaces exact (place + 1) qs cs).map (place :: ·)
    else firstPlaces exact (place + 1) (q :: qs) cs

/-- Best scores of a match that ends here, and of one that ended before, with the running bonus. -/
structure Cell where
  matched : Int
  passed : Int
  bonus : Int

instance : Inhabited Cell := ⟨⟨-32768, -32768, 0⟩⟩

abbrev Board := Array Cell

/-- Cuts the board to `size` cells, or fills it up with fresh ones. -/
def Board.resized (b : Board) (size : Nat) : Board :=
  b.take size ++ Array.replicate (size - b.size) default

def Board.put (b : Board) (i : Nat) (c : Cell) : Board := b.setIfInBounds i c

/-- What one query letter adds at one place of the candidate. -/
def stepCell (exact : Bool) (query : Char) (width cur prev : Nat) (b : Board)
    (place : Nat × Char × Int) : Board :=
  let (j, c, bonus) := place
  let left := b.getD (cur * width + j) default
  let diagonal := b.getD (prev * width + j) default
  let here := b.getD (cur * width + j + 1) default
  if agrees exact query c then
    let run := max left.bonus (max bonus 4)
    let b := b.put (cur * width + j) { left with bonus := run }
    let gain : Int := if query = c then 16 else 14
    b.put (cur * width + j + 1)
      { here with
        matched := gain + max (diagonal.matched + run) (diagonal.passed + bonus)
        passed := max (left.matched - 4) (left.passed - 1) }
  else
    b.put (cur * width + j + 1)
      { matched := -32768, passed := max (left.matched - 4) (left.passed - 1), bonus := 0 }

/-- The rows of the query's letters, one after the other. -/
def fillRows (exact : Bool) (width : Nat) (places : List (Nat × Char × Int)) :
    Nat → List (Char × Nat) → Board → Board
  | _, [], b => b
  | row, (q, first) :: rest, b =>
    fillRows exact width places (row + 1) rest
      ((places.drop first).foldl (stepCell exact q width ((row + 1) % 2) (row % 2)) b)

/-- The score of a candidate that holds the query, with the board it leaves. -/
def score (exact : Bool) (query candidate : List Char) (firsts : List Nat) (b : Board) :
    Int × Board :=
  let width := candidate.length + 1
  let b := b.resized (2 * width)
  let b := b.put (width + firsts.headD 0) default
  let b := (List.range width).foldl (fun b j => b.put j ⟨-32768, -1, 0⟩) b
  let places := (List.range candidate.length).zip (candidate.zip (placeBonuses candidate))
  let b := fillRows exact width places 0 (query.zip firsts) b
  let last := query.length % 2 * width
  let columns := (List.range width).drop (firsts.getLastD 0)
  let best := columns.foldl (fun s j => max s (b.getD (last + j) default).matched) (-32768)
  (best, b)

/-- The best candidate so far after another one. -/
def consider (query : List Char) (state : Option (Int × String) × Board) (candidate : String) :
    Option (Int × String) × Board :=
  let (best, b) := state
  let exact := mindsCase query
  let better (s : Int) : Option (Int × String) :=
    match best with
    | some (t, _) => if s ≥ t then some (s, candidate) else best
    | none => some (s, candidate)
  if query.isEmpty then (better 0, b)
  else
    match firstPlaces exact 0 query candidate.toList with
    | none => state
    | some firsts =>
      let (s, b) := score exact query candidate.toList firsts b
      (better s, b)

end Suggestion

/-- The candidate a misspelled name most likely meant. -/
def suggest? (query : String) (candidates : List String) : Option String :=
  (candidates.foldl (Suggestion.consider query.toList) (none, #[])).1.map (·.2)

/-- The hint that ends a message about an unknown name. -/
def hint (suggestion : Option String) : String :=
  match suggestion with
  | some s => s!" (did you mean '{s}'?)"
  | none => ""

end ClassSchema
