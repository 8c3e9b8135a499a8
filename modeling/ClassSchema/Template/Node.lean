import ClassSchema.Value.Basic
/-!
# Templates

A template is a list of nodes: plain text, values to print, helpers to run and blocks. What a helper
works on is told by parameters in order and by named options, each a literal, a reference to data or
a helper's own answer.
-/
namespace ClassSchema.Template

/-- Where a reference begins. -/
inductive Start where
  /-- At the item of the frame so many steps out. -/
  | item (up : Nat)
  /-- At what the frame so many steps out tells about its place. -/
  | place (up : Nat)
  /-- At the value that the whole template is given. -/
  | top
deriving DecidableEq, Repr

structure Reference where
  /-- The reference as the template writes it. -/
  written : String
  start : Start
  names : List String
deriving DecidableEq, Repr

inductive Param where
  | literal (v : Value)
  | reference (r : Reference)
  | call (helper : String) (params : List Param) (options : List (String × Param))
deriving Repr

/-- What a block begins with: its helper, what that works on, and names for what it goes through. -/
structure Opening where
  helper : String
  params : List Param
  options : List (String × Param)
  names : List String
deriving Repr

inductive Node where
  | text (s : String)
  /-- A value, or the helper that it names. -/
  | print (subject : Param)
  | run (helper : String) (params : List Param) (options : List (String × Param))
  /-- A block; what comes after `else` is its second part. -/
  | block (opening : Opening) (body orElse : List Node)
deriving Repr

/-- A reference to a member of the item, by one name. -/
def Reference.member (name : String) : Reference := ⟨name, .item 0, [name]⟩

end ClassSchema.Template
