import ClassSchema.Template.Tag
import ClassSchema.Text.Blank
/-!
# Template source

Templates are written as text with tags in double braces. The text is cut into pieces, a line that
holds nothing but a block tag or a comment is taken out with its line break, and the pieces are put
together into nodes.
-/
namespace ClassSchema.Template

inductive Piece where
  | text (s : List Char)
  /-- The text of a raw block. Its leading blanks do not count. -/
  | raw (s : List Char)
  | tag (t : Braced)
deriving Repr

def openingBraces : List Char := ['{', '{']

def rawBraces : List Char := openingBraces ++ openingBraces

/-- A backslash before a tag makes it plain text; each of several but the last stands for itself. -/
def takeEscape : List Char → Option (List Char × List Char)
  | '\\' :: '{' :: '{' :: '{' :: '{' :: rest => some (rawBraces, rest)
  | '\\' :: '{' :: '{' :: rest => some (openingBraces, rest)
  | '\\' :: '\\' :: rest =>
    let more := rest.takeWhile (· = '\\')
    match rest.dropWhile (· = '\\') with
    | '{' :: '{' :: _ => some ('\\' :: more, rest.dropWhile (· = '\\'))
    | _ => none
  | _ => none

/-- The text before the first braces that are not escaped, and the rest from there on. -/
def takeText (braces : List Char) : Nat → List Char → List Char × List Char
  | 0, s => ([], s)
  | _, [] => ([], [])
  | fuel + 1, c :: cs =>
    match takeEscape (c :: cs) with
    | some (t, rest) =>
      let (more, rest) := takeText braces fuel rest
      (t ++ more, rest)
    | none =>
      if braces.isPrefixOf (c :: cs) then ([], c :: cs)
      else
        let (more, rest) := takeText braces fuel cs
        (c :: more, rest)

def textBefore (braces s : List Char) : List Char × List Char := takeText braces s.length s

/-- A raw block after the first half of its opening braces. -/
def rawBlock : TagReader (List Piece) := do
  let closing := closingBraces ++ closingBraces
  TagReader.mark openingBraces
  let start ← braced closing (.opening <$> opening)
  let (text, rest) := textBefore rawBraces (← get)
  set rest
  TagReader.mark rawBraces
  let stop ← braced closing closingTag
  return [.tag start, .raw text, .tag stop]

/-- What stands after opening braces. -/
def tagged : TagReader (List Piece) := .firstOf (do return [.tag (← anyTag)]) rawBlock

def piecesIn : Nat → List Char → Option (List Piece)
  | _, [] => some []
  | 0, _ => none
  | fuel + 1, s =>
    if openingBraces.isPrefixOf s then
      match tagged (s.drop openingBraces.length) with
      | .ok (ps, rest) => (piecesIn fuel rest).map (ps ++ ·)
      | .error _ => none
    else
      let (text, rest) := textBefore openingBraces s
      (piecesIn fuel rest).map (.text text :: ·)

/-- The pieces of a source, if all its tags can be read. -/
def pieces (s : List Char) : Option (List Piece) := piecesIn s.length s

def isLineBlank (c : Char) : Bool := c = ' ' || c = '\t'

def isLineBreak (c : Char) : Bool := c = '\n' || c = '\r'

/-- Whether a line begins at the end of a text, blanks aside; `fresh` tells whether one begins at its
start. -/
def lineBegins (fresh : Bool) (s : List Char) : Bool :=
  match (dropLastWhile isLineBlank s).getLast? with
  | some c => isLineBreak c
  | none => fresh

/-- Whether a line ends where pieces begin, blanks aside. -/
def lineEnds : List Piece → Bool
  | .text s :: _ | .raw s :: _ => ((s.dropWhile isLineBlank).head?).any isLineBreak
  | _ => false

/-- The text after the end of the line it starts with. -/
def dropLineEnd (s : List Char) : List Char :=
  match s.dropWhile isLineBlank with
  | '\r' :: '\n' :: rest => rest
  | '\n' :: rest => rest
  | rest => rest

/-- Whether a tag stands alone on its line; `fresh` tells whether a line begins before it. -/
def standsAlone (fresh : Bool) (t : Tag) (after : List Piece) : Bool :=
  t.ownsLine && fresh && lineEnds after

/-- What has been read so far of the pieces' surroundings. -/
structure Margin where
  /-- A line begins here. -/
  fresh : Bool
  /-- The rest of the line goes with the tag before. -/
  cut : Bool
  /-- The tag before takes away blanks. -/
  trim : Bool

/-- The margin after a tag. -/
def Margin.afterTag (m : Margin) (t : Braced) (after : List Piece) : Margin where
  fresh := false
  cut := if t.tag.ownsLine then standsAlone m.fresh t.tag after else m.cut
  trim := match t.tag with
    | .comment => m.trim
    | _ => t.trimsAfter

/-- The margin after a text. -/
def Margin.afterText (m : Margin) (s : List Char) : Margin where
  fresh := lineBegins m.fresh s
  cut := m.cut && m.trim && s.all isTagSpace
  trim := m.trim

/-- A text without what the tag before it takes away. -/
def tidyStart (m : Margin) (s : List Char) : List Char :=
  if m.trim then s.dropWhile isBlank else if m.cut then dropLineEnd s else s

/-- A text without what the tag after it takes away. -/
def tidyEnd (m : Margin) (s : List Char) : List Piece → List Char
  | .tag t :: after =>
    let s := if t.trimsBefore then dropLastWhile isBlank s else s
    if standsAlone m.fresh t.tag after then dropLastWhile isLineBlank s else s
  | _ => s

/-- Takes away the blanks and line ends that go with tags. -/
def tidy (m : Margin) : List Piece → List Piece
  | [] => []
  | .text s :: rest =>
    let next := m.afterText s
    .text (tidyEnd next (tidyStart m s) rest) :: tidy next rest
  | .raw s :: rest =>
    let next := m.afterText s
    .text (tidyEnd next (tidyStart m (s.dropWhile isTagSpace)) rest) :: tidy next rest
  | .tag t :: rest => .tag t :: tidy (m.afterTag t rest) rest

/-- A block that is still open. -/
structure OpenBlock where
  helper : String
  /-- The nodes before the block. -/
  before : List Node
  /-- The parts that are complete, the latest first. -/
  parts : List (Opening × List Node)
  /-- How the part that is being read begins; none for the one after a plain `else`. -/
  current : Option Opening

namespace OpenBlock

/-- Blocks one inside the other's second part, the latest innermost. -/
def nest (orElse : List Node) (parts : List (Opening × List Node)) : List Node :=
  parts.foldl (fun orElse p => [.block p.1 p.2 orElse]) orElse

/-- The nodes of a block that ends with the part `last`. -/
def close (b : OpenBlock) (last : List Node) : List Node :=
  match b.current with
  | none => nest last b.parts
  | some o => nest [] ((o, last) :: b.parts)

/-- Ends the current part and begins the next one; after a plain `else` there is none. -/
def next? (b : OpenBlock) (body : List Node) (current : Option Opening) : Option OpenBlock :=
  b.current.map fun o => { b with parts := (o, body) :: b.parts, current }

end OpenBlock

/-- Puts pieces together; every block must be closed by its own name. -/
def assemble : List Piece → List OpenBlock → List Node → Option (List Node)
  | [], [], done => some done
  | [], _ :: _, _ => none
  | .text s :: rest, blocks, done | .raw s :: rest, blocks, done =>
    assemble rest blocks (done ++ [.text (String.ofList s)])
  | .tag t :: rest, blocks, done =>
    match t.tag, blocks with
    | .comment, blocks => assemble rest blocks done
    | .print subject, blocks => assemble rest blocks (done ++ [.print subject])
    | .run helper params options, blocks =>
      assemble rest blocks (done ++ [.run helper params options])
    | .opening o, blocks => assemble rest (⟨o.helper, done, [], some o⟩ :: blocks) []
    | .chain o, b :: outer => do assemble rest ((← b.next? done (some o)) :: outer) []
    | .orElse, b :: outer => do assemble rest ((← b.next? done none) :: outer) []
    | .closing helper, b :: outer =>
      if b.helper = helper then assemble rest outer (b.before ++ b.close done) else none
    | _, [] => none

/-- Reads a template from its source. -/
def ofSource? (source : String) : Option (List Node) := do
  assemble (tidy ⟨true, false, false⟩ (← pieces source.toList)) [] []

end ClassSchema.Template
