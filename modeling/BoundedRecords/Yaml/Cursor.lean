import BoundedRecords.Yaml.Source

/-! A place in a YAML text: what is still to be read, and the line and column reached. -/
namespace BoundedRecords.Yaml

structure Cursor where
  rest : List Char
  line : Nat
  column : Nat
  /-- How many characters were read. -/
  index : Nat
  /-- Whether only blanks were read since the last line break. -/
  fresh : Bool

namespace Cursor

def start (text : List Char) : Cursor := ⟨text, 0, 0, 0, false⟩

/-- Reads one character that is no line break. -/
def skip (c : Cursor) : Cursor :=
  match c.rest with
  | [] => c
  | ch :: rest => ⟨rest, c.line, c.column + 1, c.index + 1, c.fresh && isBlank ch⟩

/-- Reads `n` characters of which none is a line break. -/
def advance : Nat → Cursor → Cursor
  | 0, c => c
  | n + 1, c => advance n c.skip

/-- Reads one line break, if there is one. -/
def skipLine (c : Cursor) : Cursor :=
  match c.rest with
  | '\r' :: '\n' :: rest => ⟨rest, c.line + 1, 0, c.index + 2, true⟩
  | ch :: rest => if isBreak ch then ⟨rest, c.line + 1, 0, c.index + 1, true⟩ else c
  | [] => c

/-- Reads the characters that satisfy `p`, none of which may be a line break. -/
def skipWhile (p : Char → Bool) (c : Cursor) : Cursor := advance (c.rest.takeWhile p).length c

def whiteFrom : List Char → (line column index : Nat) → (fresh : Bool) → Cursor
  | '\r' :: '\n' :: rest, line, _, index, _ => whiteFrom rest (line + 1) 0 (index + 2) true
  | ch :: rest, line, column, index, fresh =>
    if isBreak ch then whiteFrom rest (line + 1) 0 (index + 1) true
    else if isBlank ch then whiteFrom rest line (column + 1) (index + 1) fresh
    else ⟨ch :: rest, line, column, index, fresh⟩
  | [], line, column, index, fresh => ⟨[], line, column, index, fresh⟩

/-- Reads all blanks and line breaks that follow. -/
def skipWhite (c : Cursor) : Cursor := whiteFrom c.rest c.line c.column c.index c.fresh

/-- Whether three marks that divide documents stand at the start of a line. -/
def atDocumentMark (mark : Char) (c : Cursor) : Bool :=
  c.column == 0 &&
    match c.rest with
    | a :: b :: d :: rest => a == mark && b == mark && d == mark && atWhite rest
    | _ => false

def atDivider (c : Cursor) : Bool := c.atDocumentMark '-' || c.atDocumentMark '.'

end Cursor

/-- The line breaks of a run of white space. All but the two Unicode separators count as line
feeds. -/
def breaksOf : List Char → List Char
  | '\r' :: '\n' :: rest => '\n' :: breaksOf rest
  | c :: rest =>
    if c.toNat == 0x2028 || c.toNat == 0x2029 then c :: breaksOf rest
    else if isBreak c then '\n' :: breaksOf rest
    else breaksOf rest
  | [] => []

/-- What white space between two parts of a scalar stands for. Blanks stay; a single line feed is a
space, and of several the first is dropped. -/
def joinWhite (white : List Char) : List Char :=
  match breaksOf white with
  | [] => white
  | ['\n'] => [' ']
  | '\n' :: more => more
  | breaks => breaks

end BoundedRecords.Yaml
