import BoundedRecords.Proofs.Yaml.Forms

/-! The steps of the scanner over a key, its colon and its scalar: the tokens that each adds, the blocks that it
opens or closes, and where it leaves the scanner. -/
namespace BoundedRecords.Yaml

/-! Keys. -/

def isKeyChar (ch : Char) : Bool := ch.isLower || ch == '_'

structure KeyText (key : List Char) : Prop where
  filled : key ≠ []
  letters : ∀ ch ∈ key, isKeyChar ch = true
  short : key.length ≤ 1024

/-- The text ahead begins neither with a blank nor with a comment. -/
def Bare (ahead : List Char) : Prop := ∀ ch, ahead.head? = some ch → isBlank ch = false ∧ ch ≠ '#'

namespace Cursor

end Cursor

namespace Scanner

/-! Up to the next token. -/

section

variable {s : Scanner} {key ahead : List Char} {line column index : Nat} {fresh : Bool} {indent i : Int}
  {indents is : List Int} {mark : KeyMark} {tokens ts : List Token}

end

/-! Values. -/

end Scanner
end BoundedRecords.Yaml
