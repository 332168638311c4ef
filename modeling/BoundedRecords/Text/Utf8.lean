import BoundedRecords.Text.Bytes

/-! UTF-8. A sequence is well formed when it encodes a Unicode scalar value in its shortest form;
the admissible second bytes after E0, ED, F0 and F4 are narrower for that reason. -/
namespace BoundedRecords.Utf8

def isContinuation (b : UInt8) : Bool := 0x80 ≤ b && b ≤ 0xBF

/-- The second bytes that may follow a leading byte of three or four. -/
def isSecond (lead b : UInt8) : Bool :=
  if lead == 0xE0 then 0xA0 ≤ b && b ≤ 0xBF
  else if lead == 0xED then 0x80 ≤ b && b ≤ 0x9F
  else if lead == 0xF0 then 0x90 ≤ b && b ≤ 0xBF
  else if lead == 0xF4 then 0x80 ≤ b && b ≤ 0x8F
  else isContinuation b

def isLead2 (b : UInt8) : Bool := 0xC2 ≤ b && b ≤ 0xDF
def isLead3 (b : UInt8) : Bool := 0xE0 ≤ b && b ≤ 0xEF
def isLead4 (b : UInt8) : Bool := 0xF0 ≤ b && b ≤ 0xF4

/-- The low six bits, which a continuation byte carries. -/
def payload (b : UInt8) : Nat := b.toNat % 64

/-- The character that the bytes begin with, and the bytes after it. -/
def head? : Bytes → Option (Char × Bytes)
  | [] => none
  | a :: s =>
    if a < 0x80 then some (Char.ofNat a.toNat, s)
    else if isLead2 a then
      match s with
      | b :: t =>
        if isContinuation b then some (Char.ofNat (a.toNat % 32 * 64 + payload b), t) else none
      | _ => none
    else if isLead3 a then
      match s with
      | b :: c :: t =>
        if isSecond a b && isContinuation c then
          some (Char.ofNat ((a.toNat % 16 * 64 + payload b) * 64 + payload c), t)
        else none
      | _ => none
    else if isLead4 a then
      match s with
      | b :: c :: d :: t =>
        if isSecond a b && isContinuation c && isContinuation d then
          some (Char.ofNat (((a.toNat % 8 * 64 + payload b) * 64 + payload c) * 64 + payload d), t)
        else none
      | _ => none
    else none

/-- Bytes read as text: characters, and the bytes that belong to no well-formed sequence. -/
inductive Piece where
  | char (c : Char)
  | stray (b : UInt8)
deriving DecidableEq, Repr

/-- Reads the pieces into `done`, latest first. -/
def piecesOnto : (fuel : Nat) → (done : List Piece) → Bytes → List Piece
  | 0, done, _ => done
  | _ + 1, done, [] => done
  | fuel + 1, done, b :: rest =>
    match head? (b :: rest) with
    | some (c, after) => piecesOnto fuel (.char c :: done) after
    | none => piecesOnto fuel (.stray b :: done) rest

def pieces (s : Bytes) : List Piece := (piecesOnto s.length [] s).reverse

def Piece.isChar : Piece → Bool
  | .char _ => true
  | .stray _ => false

/-- The character a reader shows: U+FFFD stands for a stray byte. -/
def Piece.shown : Piece → Char
  | .char c => c
  | .stray _ => Char.ofNat 0xFFFD

def valid (s : Bytes) : Bool := (pieces s).all Piece.isChar

def encode (c : Char) : Bytes := String.utf8EncodeChar c

/-- The characters of the text, with U+FFFD for each stray byte. -/
def chars (s : Bytes) : List Char := (pieces s).map Piece.shown

/-- The bytes with each stray one replaced by the encoding of U+FFFD. -/
def repair (s : Bytes) : Bytes := (chars s).flatMap encode

/-- A character cut short: a non-empty proper beginning of some well-formed sequence. -/
def isIncomplete : Bytes → Bool
  | [a] => isLead2 a || isLead3 a || isLead4 a
  | [a, b] => (isLead3 a || isLead4 a) && isSecond a b
  | [a, b, c] => isLead4 a && isSecond a b && isContinuation c
  | _ => false

end BoundedRecords.Utf8

namespace BoundedRecords.Bytes

/-- The text as characters. -/
def toString (s : Bytes) : String := String.ofList (Utf8.chars s)

end BoundedRecords.Bytes
