import ClassSchema.Fault
import ClassSchema.Text.Blank
import ClassSchema.Value.Decoder
/-!
# Resolver references

A reference names a method of a resolver provider. It is written `Owner::method`, or as the list of
its two parts; neither part is empty or holds a colon or a blank.
-/
namespace ClassSchema

structure Reference where
  owner : String
  method : String
deriving DecidableEq, Repr, Inhabited

namespace Reference

def chars (r : Reference) : List Char := r.owner.toList ++ ':' :: ':' :: r.method.toList

def text (r : Reference) : String := String.ofList r.chars

/-- A text cut at its first double colon. -/
def splitPair : List Char → Option (List Char × List Char)
  | ':' :: ':' :: rest => some ([], rest)
  | c :: rest => (splitPair rest).map fun p => (c :: p.1, p.2)
  | [] => none

/-- A part of a reference: not empty, without colons and blanks. -/
def isPart (s : List Char) : Bool := !s.isEmpty && s.all fun c => c ≠ ':' && !isBlank c

/-- Two parts, blanks around them aside. -/
def ofPair (owner method : String) : Except Fault Reference :=
  let o := trimmedChars owner.toList
  let m := trimmedChars method.toList
  if isPart o && isPart m then .ok ⟨String.ofList o, String.ofList m⟩
  else .error (.malformedReference (String.ofList (o ++ ':' :: ':' :: m)))

/-- The form `Owner::method`. -/
def parse (s : String) : Except Fault Reference :=
  match splitPair (trimmedChars s.toList) with
  | none => .error (.malformedReference s)
  | some (o, m) =>
    match ofPair (String.ofList o) (String.ofList m) with
    | .ok r => .ok r
    | .error _ => .error (.malformedReference s)

/-- Either form, as settings hold it. -/
def ofValue : Value → Except Fault Reference
  | .string s => parse s
  | .list [.string owner, .string method] => ofPair owner method
  | v => .error (.malformedReference v.text)

def decode (v : Value) : Option Reference := v.string?.bind fun s => (parse s).toOption

end Reference
end ClassSchema
