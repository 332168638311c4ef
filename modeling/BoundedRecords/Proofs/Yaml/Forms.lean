import BoundedRecords.Proofs.Text.Decimal
import BoundedRecords.Proofs.Yaml.Scalars

/-! The forms of a scalar on one line. A text without line breaks is written in one of three forms, in the plain one
only where it is read as text; whatever it holds, what is written holds only characters that a text may hold. -/
namespace BoundedRecords.Yaml

/-- `Form w text plain`: the text in one of its forms on one line, which is the plain one or not. -/
inductive Form : List Char → List Char → Bool → Prop where
  | plain {cs : List Char} : cs ≠ [] → fitsPlain cs = true → Form cs cs true
  | single {cs : List Char} (indent : Nat) : fitsSingleQuotes cs = true → (∀ ch ∈ cs, isBreak ch = false) →
      Form (inSingleQuotes indent cs) cs false
  | double (cs : List Char) : Form (inDoubleQuotes cs) cs false

end BoundedRecords.Yaml
