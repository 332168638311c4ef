import BoundedRecords.Text.Utf8

/-! The characters of a YAML text. A byte order mark at the start selects UTF-16 or is skipped;
control characters are not allowed anywhere. -/
namespace BoundedRecords.Yaml

def isBlank (c : Char) : Bool := c == ' ' || c == '\t'

def isBreak (c : Char) : Bool :=
  c == '\n' || c == '\r' || c.toNat == 0x85 || c.toNat == 0x2028 || c.toNat == 0x2029

def isWhite (c : Char) : Bool := isBlank c || isBreak c

/-- The end of the text counts as a break. -/
def atBreak : List Char → Bool
  | [] => true
  | c :: _ => isBreak c

/-- The end of the text counts as white space. -/
def atWhite : List Char → Bool
  | [] => true
  | c :: _ => isWhite c

/-- Letters, digits and the two marks of names. -/
def isWord (c : Char) : Bool := c.isAlphanum || c == '_' || c == '-'

def isAllowed (c : Char) : Bool :=
  let n := c.toNat
  n == 0x09 || n == 0x0A || n == 0x0D || (0x20 ≤ n && n ≤ 0x7E) || n == 0x85 ||
    (0xA0 ≤ n && n ≤ 0xD7FF) || (0xE000 ≤ n && n ≤ 0xFFFD) || 0x10000 ≤ n

/-- The numbers of two bytes each that make up a UTF-16 text. -/
def units (bigEndian : Bool) : Bytes → Option (List Nat)
  | [] => some []
  | [_] => none
  | a :: b :: rest => do
    let more ← units bigEndian rest
    return (if bigEndian then a.toNat * 256 + b.toNat else b.toNat * 256 + a.toNat) :: more

def ofUnits : List Nat → Option (List Char)
  | [] => some []
  | [u] => if u / 0x400 == 0x36 || u / 0x400 == 0x37 then none else some [Char.ofNat u]
  | u :: v :: rest =>
    if u / 0x400 == 0x37 then none
    else if u / 0x400 == 0x36 then
      if v / 0x400 == 0x37 then do
        let more ← ofUnits rest
        return Char.ofNat (0x10000 + u % 0x400 * 0x400 + v % 0x400) :: more
      else none
    else do
      let more ← ofUnits (v :: rest)
      return Char.ofNat u :: more

/-- The characters before any check. -/
def decode : Bytes → Option (List Char)
  | 0xFF :: 0xFE :: rest => (units false rest).bind ofUnits
  | 0xFE :: 0xFF :: rest => (units true rest).bind ofUnits
  | s =>
    let text := (Bytes.dropStart? [0xEF, 0xBB, 0xBF] s).getD s
    if Utf8.valid text then some (Utf8.chars text) else none

/-- The characters of a text; none if it is not well formed or holds a control character. -/
def charsOf (s : Bytes) : Option (List Char) := (decode s).filter fun cs => cs.all isAllowed

end BoundedRecords.Yaml
