/-! Byte strings. Names, files, requests and answers may hold any bytes, so text is a list of bytes
here and becomes characters only where a rule speaks of characters. -/
namespace BoundedRecords

abbrev Bytes := List UInt8

/-- The UTF-8 bytes of a text. -/
def utf8 (s : String) : Bytes := s.toList.flatMap String.utf8EncodeChar

namespace Bytes

/-- The byte of an ASCII character. -/
def ascii (c : Char) : UInt8 := c.toNat.toUInt8

def isDigit (b : UInt8) : Bool := 0x30 ≤ b && b ≤ 0x39
def isUpper (b : UInt8) : Bool := 0x41 ≤ b && b ≤ 0x5A
def isLower (b : UInt8) : Bool := 0x61 ≤ b && b ≤ 0x7A
def isLetter (b : UInt8) : Bool := isUpper b || isLower b

def toLower (b : UInt8) : UInt8 := if isUpper b then b + 0x20 else b
def toUpper (b : UInt8) : UInt8 := if isLower b then b - 0x20 else b

/-- The part before the first `sep` and, if there is one, the part after it. -/
def cut (sep : UInt8) (s : Bytes) : Bytes × Option Bytes :=
  match s.dropWhile (· != sep) with
  | [] => (s.takeWhile (· != sep), none)
  | _ :: rest => (s.takeWhile (· != sep), some rest)

/-- The pieces between the occurrences of `sep`; one more than there are separators. -/
def splitOn (sep : UInt8) (s : Bytes) : List Bytes :=
  let (last, pieces) := s.foldl
    (fun (piece, done) b => if b == sep then ([], piece.reverse :: done) else (b :: piece, done))
    (([], []) : Bytes × List Bytes)
  (last.reverse :: pieces).reverse

def join (sep : Bytes) : List Bytes → Bytes
  | [] => []
  | [s] => s
  | s :: rest => s ++ sep ++ join sep rest

def dropStart? (start s : Bytes) : Option Bytes :=
  if start.isPrefixOf s then some (s.drop start.length) else none

/-- Lexicographic order of bytes. -/
def le : Bytes → Bytes → Bool
  | [], _ => true
  | _ :: _, [] => false
  | a :: s, b :: t => if a < b then true else if b < a then false else le s t

end Bytes
end BoundedRecords
