import BoundedRecords.Json.Basic

/-! Writing JSON, on one line or indented. Characters that could end a script or a line in a page are
escaped as well. -/
namespace BoundedRecords.Json

def escapeHex (n : Nat) : Bytes := utf8 "\\u" ++ Hex.ofNat 4 n

/-- A character inside quotes. -/
def writeChar (c : Char) : Bytes :=
  match c.toNat with
  | 0x22 => utf8 "\\\""
  | 0x5C => utf8 "\\\\"
  | 0x08 => utf8 "\\b"
  | 0x0C => utf8 "\\f"
  | 0x0A => utf8 "\\n"
  | 0x0D => utf8 "\\r"
  | 0x09 => utf8 "\\t"
  | n =>
    if n < 0x20 || n == 0x3C || n == 0x3E || n == 0x26 || n == 0x2028 || n == 0x2029 then escapeHex n
    else Utf8.encode c

/-- A stray byte stands for the replacement character, in its escaped form. -/
def writePiece : Utf8.Piece → Bytes
  | .char c => writeChar c
  | .stray _ => utf8 "\\ufffd"

def writeString (s : Bytes) : Bytes := 0x22 :: (Utf8.pieces s).flatMap writePiece ++ [0x22]

/-- What stands between the parts of a value. -/
structure Layout where
  /-- After the colon of a member. -/
  afterColon : Bytes
  /-- A new line under so many brackets. -/
  line : Nat → Bytes

/-- Everything on one line. -/
def compact : Layout := ⟨[], fun _ => []⟩

/-- One item or member a line, two spaces for each bracket. -/
def indented : Layout := ⟨[0x20], fun depth => 0x0A :: List.replicate (2 * depth) 0x20⟩

mutual

def writeAt (layout : Layout) (depth : Nat) : Json → Bytes
  | .null => utf8 "null"
  | .bool b => utf8 (if b then "true" else "false")
  | .number text => text
  | .string text => writeString text
  | .array [] => utf8 "[]"
  | .array (item :: items) =>
    0x5B :: layout.line (depth + 1) ++ writeAt layout (depth + 1) item ++
      writeItems layout depth items ++ layout.line depth ++ [0x5D]
  | .object [] => utf8 "\x7b\x7d"
  | .object (m :: members) =>
    0x7B :: layout.line (depth + 1) ++ writeMember layout depth m ++
      writeMembers layout depth members ++ layout.line depth ++ [0x7D]

def writeItems (layout : Layout) (depth : Nat) : List Json → Bytes
  | [] => []
  | item :: items =>
    0x2C :: layout.line (depth + 1) ++ writeAt layout (depth + 1) item ++ writeItems layout depth items

def writeMember (layout : Layout) (depth : Nat) : Bytes × Json → Bytes
  | (key, v) => writeString key ++ 0x3A :: layout.afterColon ++ writeAt layout (depth + 1) v

def writeMembers (layout : Layout) (depth : Nat) : List (Bytes × Json) → Bytes
  | [] => []
  | m :: members =>
    0x2C :: layout.line (depth + 1) ++ writeMember layout depth m ++ writeMembers layout depth members

end

/-- The text of a value, with a line feed at the end. -/
def write (layout : Layout) (v : Json) : Bytes := writeAt layout 0 v ++ [0x0A]

end BoundedRecords.Json
