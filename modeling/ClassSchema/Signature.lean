import ClassSchema.Digest.Sha256
import ClassSchema.Value.Text
/-!
# Signatures

A signature is the digest of a definition, taken over its compact text with every table in name
order, so that it follows what is defined and not how it was written down.
-/
namespace ClassSchema

namespace Signature

def ofBytes (text : String) : String := Sha256.hex text.toUTF8.toList

def of (definition : Value) : String := ofBytes definition.ordered.text

/-- Whether a remembered signature is this one. -/
def isRemembered (signature : String) (remembered : Option String) : Bool :=
  remembered = some signature

end Signature
end ClassSchema
