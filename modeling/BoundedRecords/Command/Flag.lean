import BoundedRecords.Text.Numeral
import BoundedRecords.Text.Quoted

/-! The flags of a command line, and how their values are read. -/
namespace BoundedRecords.Command

inductive FlagValue where
  | switch (on : Bool)
  | number (n : Int64)
  | text (s : Bytes)
deriving DecidableEq, Repr

/-- A flag takes values of the same kind as its initial one. -/
structure Flag where
  name : String
  /-- The letter of its short form. -/
  short : Option UInt8
  initial : FlagValue
  usage : Bytes
deriving DecidableEq, Repr

/-- Why a text is no number. -/
def numberFault : Numeral.Fault → Bytes
  | .malformed => utf8 "invalid syntax"
  | .outOfRange => utf8 "value out of range"

/-- What is said of a text that does not read as a value. -/
def unreadable (reader : String) (s why : Bytes) : Bytes :=
  utf8 reader ++ utf8 ": parsing " ++ Quoted.text s ++ utf8 ": " ++ why

def trueWords : List Bytes := ["1", "t", "T", "TRUE", "true", "True"].map utf8
def falseWords : List Bytes := ["0", "f", "F", "FALSE", "false", "False"].map utf8

namespace Flag

def isSwitch (f : Flag) : Bool :=
  match f.initial with
  | .switch _ => true
  | _ => false

/-- Reads a value. Numbers may be marked with a base and separated by underscores. -/
def read (f : Flag) (s : Bytes) : Except Bytes FlagValue :=
  match f.initial with
  | .text _ => .ok (.text s)
  | .number _ =>
    match Numeral.readSigned true s with
    | .ok n => .ok (.number n)
    | .error e => .error (unreadable "strconv.ParseInt" s (numberFault e))
  | .switch _ =>
    if trueWords.contains s then .ok (.switch true)
    else if falseWords.contains s then .ok (.switch false)
    else .error (unreadable "strconv.ParseBool" s (numberFault .malformed))

/-- A flag as it is spoken of. -/
def label (f : Flag) : Bytes :=
  match f.short with
  | some c => 0x2D :: c :: utf8 ", --" ++ utf8 f.name
  | none => utf8 "--" ++ utf8 f.name

end Flag

inductive FlagError where
  | malformed (argument : Bytes)
  | unknown (name : Bytes)
  | unknownShort (letter : UInt8) (letters : Bytes)
  | missingValue (argument : Bytes)
  | missingShortValue (letter : UInt8)
  | invalid (flag : Flag) (value why : Bytes)
deriving DecidableEq, Repr

/-- A byte as a character between quotes. -/
def quotedLetter (b : UInt8) : Bytes := Quoted.letter (Char.ofNat b.toNat)

def FlagError.message : FlagError → Bytes
  | .malformed argument => utf8 "bad flag syntax: " ++ argument
  | .unknown name => utf8 "unknown flag: --" ++ name
  | .unknownShort letter letters =>
    utf8 "unknown shorthand flag: " ++ quotedLetter letter ++ utf8 " in -" ++ letters
  | .missingValue argument => utf8 "flag needs an argument: " ++ argument
  | .missingShortValue letter =>
    utf8 "flag needs an argument: " ++ quotedLetter letter ++ utf8 " in -" ++ [letter]
  | .invalid flag value why =>
    utf8 "invalid argument " ++ Quoted.text value ++ utf8 " for " ++ Quoted.text flag.label ++
      utf8 " flag: " ++ why

end BoundedRecords.Command
