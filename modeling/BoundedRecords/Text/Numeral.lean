import BoundedRecords.Text.Bytes

/-! Whole numbers as text: decimal digits, the two readers of signed 64-bit numbers (plain decimal,
and with a base marker and digit separators), lower-case hexadecimal and base 64. -/
namespace BoundedRecords

namespace Decimal

def digit (n : Nat) : UInt8 := 0x30 + (n % 10).toUInt8

/-- Puts the digits of `n` in front of `after`; `fuel` is more than their number. -/
def digitsOnto : (fuel n : Nat) → (after : Bytes) → Bytes
  | 0, _, after => after
  | fuel + 1, n, after =>
    if n < 10 then digit n :: after else digitsOnto fuel (n / 10) (digit n :: after)

def ofNat (n : Nat) : Bytes := digitsOnto (n + 1) n []

def ofInt : Int → Bytes
  | .ofNat n => ofNat n
  | .negSucc n => 0x2D :: ofNat (n + 1)

def ofInt64 (n : Int64) : Bytes := ofInt n.toInt

end Decimal

namespace Numeral

/-- The number of words of 64 bits, and of those that are not negative. -/
def wordCount : Nat := 0x10000000000000000
def halfCount : Nat := 0x8000000000000000

/-- Why a text is not a number of 64 bits. -/
inductive Fault where
  | malformed
  | outOfRange
deriving DecidableEq, Repr

/-- The value of a digit in bases up to thirty-six. -/
def digitValue? (b : UInt8) : Option Nat :=
  if Bytes.isDigit b then some (b.toNat - 0x30)
  else if Bytes.isLetter b then some ((Bytes.toLower b).toNat - 0x61 + 10)
  else none

/-- Reads on from the value `n`. Digits are read from the left, and the number leaves the range as
soon as the digits so far do. -/
def readDigits (base : Nat) (separators : Bool) (n : Nat) : Bytes → Except Fault Nat
  | [] => .ok n
  | b :: rest =>
    if separators && b == 0x5F then readDigits base separators n rest
    else match digitValue? b with
      | none => .error .malformed
      | some d =>
        if d ≥ base then .error .malformed
        else if n * base + d ≥ wordCount then .error .outOfRange
        else readDigits base separators (n * base + d) rest

/-- The base that a leading zero announces, and the digits after the marker. -/
def baseOf : Bytes → Nat × Bytes
  | 0x30 :: c :: d :: rest =>
    match Bytes.toLower c with
    | 0x62 => (2, d :: rest)
    | 0x6F => (8, d :: rest)
    | 0x78 => (16, d :: rest)
    | _ => (8, c :: d :: rest)
  | 0x30 :: rest => (8, rest)
  | s => (10, s)

/-- What stood last in a number with separators: a digit, a separator or something else. -/
inductive Seen where
  | start
  | digit
  | separator
  | other
deriving DecidableEq

def separatedFrom (hex : Bool) : Seen → Bytes → Bool
  | seen, [] => seen != .separator
  | seen, b :: rest =>
    if Bytes.isDigit b || (hex && 0x61 ≤ Bytes.toLower b && Bytes.toLower b ≤ 0x66) then
      separatedFrom hex .digit rest
    else if b == 0x5F then seen == .digit && separatedFrom hex .separator rest
    else seen != .separator && separatedFrom hex .other rest

/-- A separator stands between two digits; a base marker counts as a digit. -/
def wellSeparated : Bytes → Bool
  | 0x30 :: c :: rest =>
    match Bytes.toLower c with
    | 0x78 => separatedFrom true .digit rest
    | 0x62 | 0x6F => separatedFrom false .digit rest
    | _ => separatedFrom false .start (0x30 :: c :: rest)
  | s => separatedFrom false .start s

/-- A number without sign: decimal, or with a base marker and separators if `marked`. -/
def readUnsigned (marked : Bool) (s : Bytes) : Except Fault Nat :=
  if s.isEmpty then .error .malformed
  else if marked then do
    let (base, digits) := baseOf s
    let n ← readDigits base true 0 digits
    if s.contains 0x5F && !wellSeparated s then throw .malformed
    return n
  else readDigits 10 false 0 s

def signOf : Bytes → Bool × Bytes
  | 0x2D :: rest => (true, rest)
  | 0x2B :: rest => (false, rest)
  | s => (false, s)

/-- A number with an optional sign that fits 64 bits. -/
def readSigned (marked : Bool) (s : Bytes) : Except Fault Int64 := do
  let (negative, digits) := signOf s
  let n ← readUnsigned marked digits
  if negative then
    if n ≤ halfCount then return Int64.ofInt (-(n : Int)) else throw .outOfRange
  else if n < halfCount then return Int64.ofInt n
  else throw .outOfRange

end Numeral

namespace Hex

def digit (n : Nat) : UInt8 := if n < 10 then 0x30 + n.toUInt8 else 0x57 + n.toUInt8

/-- Two lower-case digits. -/
def ofByte (b : UInt8) : Bytes := [digit (b.toNat / 16), digit (b.toNat % 16)]

def ofBytes (s : Bytes) : Bytes := s.flatMap ofByte

def value? (b : UInt8) : Option Nat :=
  match Numeral.digitValue? b with
  | some d => if d < 16 then some d else none
  | none => none

/-- Exactly `width` lower-case digits. -/
def ofNat : (width n : Nat) → Bytes
  | 0, _ => []
  | width + 1, n => ofNat width (n / 16) ++ [digit (n % 16)]

end Hex

namespace Base64

def symbol (n : Nat) : UInt8 :=
  if n < 26 then 0x41 + n.toUInt8
  else if n < 52 then 0x61 + (n - 26).toUInt8
  else if n < 62 then 0x30 + (n - 52).toUInt8
  else if n == 62 then 0x2B else 0x2F

def encode : Bytes → Bytes
  | [] => []
  | [a] => [symbol (a.toNat / 4), symbol (a.toNat % 4 * 16), 0x3D, 0x3D]
  | [a, b] =>
    [symbol (a.toNat / 4), symbol (a.toNat % 4 * 16 + b.toNat / 16), symbol (b.toNat % 16 * 4), 0x3D]
  | a :: b :: c :: rest =>
    symbol (a.toNat / 4) :: symbol (a.toNat % 4 * 16 + b.toNat / 16) ::
      symbol (b.toNat % 16 * 4 + c.toNat / 64) :: symbol (c.toNat % 64) :: encode rest

def value? (b : UInt8) : Option Nat :=
  if Bytes.isUpper b then some (b.toNat - 0x41)
  else if Bytes.isLower b then some (b.toNat - 0x61 + 26)
  else if Bytes.isDigit b then some (b.toNat - 0x30 + 52)
  else if b == 0x2B then some 62
  else if b == 0x2F then some 63
  else none

/-- Reads groups of four symbols; padding may end the last one. -/
def decodeGroups : Bytes → Option Bytes
  | [] => some []
  | [a, b, 0x3D, 0x3D] => do
    let x ← value? a
    let y ← value? b
    return [(x * 4 + y / 16).toUInt8]
  | [a, b, c, 0x3D] => do
    let x ← value? a
    let y ← value? b
    let z ← value? c
    return [(x * 4 + y / 16).toUInt8, (y % 16 * 16 + z / 4).toUInt8]
  | a :: b :: c :: d :: rest => do
    let x ← value? a
    let y ← value? b
    let z ← value? c
    let w ← value? d
    let more ← decodeGroups rest
    return (x * 4 + y / 16).toUInt8 :: (y % 16 * 16 + z / 4).toUInt8 :: (z % 4 * 64 + w).toUInt8 :: more
  | _ => none

/-- Line ends inside the text are skipped. -/
def decode (s : Bytes) : Option Bytes := decodeGroups (s.filter fun b => b != 0x0A && b != 0x0D)

end Base64
end BoundedRecords
