import BoundedRecords.Proofs.Yaml.Tokens

/-! Texts made of lines with keys. A text in which every line is a key with a scalar, or a key whose value is on
the lines below, is split into the tokens that its lines stand for; blocks begin and end where the indentation
changes. -/
namespace BoundedRecords.Yaml

/-- The column of the current block, those of the blocks around it, and the tokens so far, latest first. -/
abbrev Blocks := Int × List Int × List Token

/-- A scalar as it is written, the text it stands for, and whether the form is the plain one. -/
structure Spelling where
  written : List Char
  text : List Char
  plain : Bool

/-- A line with a key at `column`, and with the value if that stands on the same line. -/
structure Line where
  column : Nat
  key : List Char
  value : Option Spelling

namespace Line

/-- The text between the colon and the end of the line. -/
def tail (l : Line) : List Char :=
  match l.value with
  | none => []
  | some s => ' ' :: s.written

def body (l : Line) (ahead : List Char) : List Char := l.key ++ ':' :: (l.tail ++ '\n' :: ahead)

def closed (l : Line) (line : Nat) (b : Blocks) : Blocks := Scanner.closeFrom l.column line b.2.1 b.1 b.2.2

/-- The line can stand here, with the next one at column `next`. -/
structure Fits (l : Line) (line next : Nat) (b : Blocks) : Prop where
  key : KeyText l.key
  form : ∀ s, l.value = some s → Form s.written s.text s.plain ∧ next ≤ l.column
  inside : (l.closed line b).1 ≤ l.column
  room : (l.closed line b).2.1.length < Scanner.maxDepth

end Line

def nextColumn : List Line → Nat
  | [] => 0
  | l :: _ => l.column

/-- The text of lines without the indentation of the first one. -/
def bodyOf : List Line → List Char
  | [] => []
  | l :: ls => l.body (spaces (nextColumn ls) ++ bodyOf ls)

def textOf (ls : List Line) : List Char := spaces (nextColumn ls) ++ bodyOf ls

namespace Scanner

end Scanner

/-- The scanner before it has read anything. -/
def outside : Blocks := (-1, [], [⟨.streamStart, 0⟩])

end BoundedRecords.Yaml
