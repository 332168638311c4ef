import BoundedRecords.Number.Binary64
import BoundedRecords.Yaml.Node
import BoundedRecords.Yaml.Timestamp

/-! The values of scalars. A plain scalar is a number, a truth value, nothing or a date if it looks
like one, and text otherwise; a written tag restricts what it may be. -/
namespace BoundedRecords.Yaml

inductive FloatValue where
  | notANumber
  | infinite (negative : Bool)
  | finite (negative : Bool) (x : Binary64)
deriving DecidableEq, Repr

inductive Value where
  | null
  | bool
  | int (n : Int)
  | float (x : FloatValue)
  | timestamp
  | text (s : Bytes)
deriving DecidableEq, Repr

namespace Tag

def null : Bytes := utf8 "!!null"
def bool : Bytes := utf8 "!!bool"
def int : Bytes := utf8 "!!int"
def float : Bytes := utf8 "!!float"
def timestamp : Bytes := utf8 "!!timestamp"
def str : Bytes := utf8 "!!str"
def binary : Bytes := utf8 "!!binary"
def merge : Bytes := utf8 "!!merge"
def seq : Bytes := utf8 "!!seq"
def map : Bytes := utf8 "!!map"

end Tag

def Value.tag : Value → Bytes
  | .null => Tag.null
  | .bool => Tag.bool
  | .int _ => Tag.int
  | .float _ => Tag.float
  | .timestamp => Tag.timestamp
  | .text _ => Tag.str

/-! Numbers. -/

/-- Digits with an optional point and exponent, as a whole number and a power of ten. -/
def scientific (s : Bytes) : Option (Nat × Int) :=
  let whole := s.takeWhile Bytes.isDigit
  let rest := s.dropWhile Bytes.isDigit
  let (fraction, rest) :=
    match rest with
    | 0x2E :: more => (more.takeWhile Bytes.isDigit, more.dropWhile Bytes.isDigit)
    | _ => ([], rest)
  let valueOf (digits : Bytes) : Nat := digits.foldl (fun n b => n * 10 + (b.toNat - 48)) 0
  let capped (digits : Bytes) : Int := digits.foldl (fun n b => min (n * 10 + (b.toNat - 48)) 100000) 0
  let mantissa := valueOf (whole ++ fraction)
  if whole.isEmpty && fraction.isEmpty then none
  else match rest with
    | [] => some (mantissa, -fraction.length)
    | e :: more =>
      if Bytes.toLower e != 0x65 then none
      else
        let (negative, digits) := Numeral.signOf more
        if digits.isEmpty || !digits.all Bytes.isDigit then none
        else
          let power := capped digits
          some (mantissa, (if negative then -power else power) - fraction.length)

/-- A decimal fraction; none if it is malformed or too large. -/
def decimalFraction (s : Bytes) : Option FloatValue := do
  let (negative, digits) := Numeral.signOf s
  let (mantissa, power) ← scientific digits
  let x ← Binary64.ofScientific mantissa power
  return .finite negative x

/-- A number that begins with its point may have separators. -/
def pointFraction (s : Bytes) : Option FloatValue :=
  if s.contains 0x5F && !Numeral.separatedFrom false .start s then none
  else decimalFraction (s.filter (· != 0x5F))

/-- A number after a base marker, where a second sign may stand. -/
def markedInt (base : Nat) (sign : Int) (s : Bytes) : Option Int :=
  let (negative, digits) := if sign < 0 then (true, s) else Numeral.signOf s
  if digits.isEmpty then none
  else match Numeral.readDigits base false 0 digits with
    | .error _ => none
    | .ok n =>
      if negative then (if n ≤ Numeral.halfCount then some (-(n : Int)) else none)
      else if n < Numeral.halfCount then some n
      else if digits.length == s.length then some n else none

/-- A whole number that fits 64 bits, with or without sign. -/
def wholeNumber (s : Bytes) : Option Int :=
  match Numeral.readSigned true s with
  | .ok n => some n.toInt
  | .error _ =>
    match Numeral.readUnsigned true s with
    | .ok n => some n
    | .error _ => none

/-- A whole number behind the marker of base two or eight. -/
def markedNumber (s : Bytes) : Option Int :=
  match s with
  | 0x30 :: 0x62 :: rest => markedInt 2 1 rest
  | 0x2D :: 0x30 :: 0x62 :: rest => markedInt 2 (-1) rest
  | 0x30 :: 0x6F :: rest => markedInt 8 1 rest
  | 0x2D :: 0x30 :: 0x6F :: rest => markedInt 8 (-1) rest
  | _ => none

/-- A scalar that begins with a sign or a digit. -/
def number (dates : Bool) (s : Bytes) : Value :=
  if dates && Timestamp.accepts s then .timestamp
  else
    let digits := s.filter (· != 0x5F)
    match wholeNumber digits with
    | some n => .int n
    | none =>
      match decimalFraction digits with
      | some x => .float x
      | none =>
        match markedNumber digits with
        | some n => .int n
        | none => .text s

/-! Plain scalars. -/

def nullWords : List Bytes := ["", "~", "null", "Null", "NULL"].map utf8
def boolWords : List Bytes := ["true", "True", "TRUE", "false", "False", "FALSE"].map utf8
def nanWords : List Bytes := [".nan", ".NaN", ".NAN"].map utf8
def infinityWords : List Bytes := [".inf", ".Inf", ".INF", "+.inf", "+.Inf", "+.INF"].map utf8
def minusInfinityWords : List Bytes := ["-.inf", "-.Inf", "-.INF"].map utf8

/-- What a plain scalar without tag stands for. `dates` tells whether it may be a date. -/
def plainValue (dates : Bool) (s : Bytes) : Value :=
  if nullWords.contains s then .null
  else if boolWords.contains s then .bool
  else if nanWords.contains s then .float .notANumber
  else if infinityWords.contains s then .float (.infinite false)
  else if minusInfinityWords.contains s then .float (.infinite true)
  else match s with
    | [] => .text s
    | b :: _ =>
      if b == 0x2E then
        match pointFraction s with
        | some x => .float x
        | none => .text s
      else if Bytes.isDigit b || b == 0x2B || b == 0x2D then number dates s
      else .text s

/-- The nearest floating number to a whole one. -/
def FloatValue.ofInt : Int → FloatValue
  | .ofNat n => .finite false (Binary64.ofNat n)
  | .negSucc n => .finite true (Binary64.ofNat (n + 1))

def resolvableTags : List Bytes := [Tag.bool, Tag.int, Tag.float, Tag.null, Tag.timestamp]

/-- The value of a scalar with a written tag; none if the text is no value of the tag. Texts of tags
that say nothing about the form are kept as they are. -/
def taggedValue (tag s : Bytes) : Option (Bytes × Value) :=
  if tag == Tag.binary then (Base64.decode s).map fun data => (tag, .text data)
  else if !resolvableTags.contains tag then some (tag, .text s)
  else
    let v := plainValue (tag == Tag.timestamp) s
    if v.tag == tag then some (tag, v)
    else match v with
      | .int n => if tag == Tag.float && n < Numeral.halfCount then some (tag, .float (.ofInt n)) else none
      | _ => none

def mergeKey : Bytes := utf8 "<<"

/-- The tag and value of a scalar. -/
def scalarValue (tag : Option Bytes) (plain : Bool) (s : Bytes) : Option (Bytes × Value) :=
  match tag with
  | some t => taggedValue t s
  | none =>
    if !plain then some (Tag.str, .text s)
    else if s == mergeKey then some (Tag.merge, .text s)
    else
      let v := plainValue true s
      some (v.tag, v)

end BoundedRecords.Yaml
