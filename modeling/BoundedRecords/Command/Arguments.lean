import BoundedRecords.Command.Flag

/-! Reading a command line. Flags may stand anywhere before a double dash; what is no flag is a word. -/
namespace BoundedRecords.Command

/-- What a command line says: the flags that were set, latest first, and its words in order. -/
structure Arguments where
  settings : List (String × FlagValue)
  words : List Bytes
deriving DecidableEq, Repr

namespace Arguments

def none : Arguments := ⟨[], []⟩

def switch (a : Arguments) (name : String) : Bool := a.settings.lookup name == some (.switch true)

/-- The number that a flag was set to, if it was. -/
def number? (a : Arguments) (name : String) : Option Int64 :=
  match a.settings.lookup name with
  | some (.number n) => some n
  | _ => Option.none

def text? (a : Arguments) (name : String) : Option Bytes :=
  match a.settings.lookup name with
  | some (.text s) => some s
  | _ => Option.none

def set (a : Arguments) (f : Flag) (value : Bytes) : Except FlagError Arguments :=
  match f.read value with
  | .ok v => .ok { a with settings := (f.name, v) :: a.settings }
  | .error why => .error (.invalid f value why)

end Arguments

def doubleDash : Bytes := [0x2D, 0x2D]

def isLong (s : Bytes) : Bool := doubleDash.isPrefixOf s

/-- A single dash is a word. -/
def isShort (s : Bytes) : Bool :=
  match s with
  | 0x2D :: c :: _ => c != 0x2D
  | _ => false

def longFlag? (flags : List Flag) (name : Bytes) : Option Flag := flags.find? fun f => utf8 f.name == name

def shortFlag? (flags : List Flag) (letter : UInt8) : Option Flag := flags.find? fun f => f.short == some letter

/-- What is known after a flag was read: the settings, or that the next argument is its value. -/
inductive Reading where
  | settled (a : Arguments)
  | awaiting (f : Flag) (a : Arguments) (otherwise : FlagError)

/-- Letters that end the reading of a cluster without a word. -/
def ignoredLetters : Bytes := utf8 "test."

/-- Reads the letters behind a single dash. The rest of a cluster is the value of a flag that takes one. -/
def readLetters (flags : List Flag) (a : Arguments) : Bytes → Except FlagError Reading
  | [] => .ok (.settled a)
  | letter :: rest =>
    if ignoredLetters.isPrefixOf (letter :: rest) then .ok (.settled a)
    else
      match shortFlag? flags letter with
      | none => .error (.unknownShort letter (letter :: rest))
      | some f =>
        match rest with
        | 0x3D :: b :: value => (a.set f (b :: value)).map .settled
        | _ =>
          if f.isSwitch then
            match a.set f (utf8 "true") with
            | .ok a => readLetters flags a rest
            | .error e => .error e
          else if rest.isEmpty then .ok (.awaiting f a (.missingShortValue letter))
          else (a.set f rest).map .settled

/-- Reads an argument that begins with two dashes. -/
def readLong (flags : List Flag) (a : Arguments) (argument : Bytes) : Except FlagError Reading :=
  let body := argument.drop 2
  if body.isEmpty || body.head? == some 0x2D || body.head? == some 0x3D then .error (.malformed argument)
  else
    let (name, value) := Bytes.cut 0x3D body
    match longFlag? flags name with
    | none => .error (.unknown name)
    | some f =>
      match value with
      | some v => (a.set f v).map .settled
      | none =>
        if f.isSwitch then (a.set f (utf8 "true")).map .settled
        else .ok (.awaiting f a (.missingValue argument))

/-- Reads on, with the words so far kept latest first. -/
def readFrom (flags : List Flag) : List Bytes → Arguments → Except FlagError Arguments
  | [], a => .ok { a with words := a.words.reverse }
  | s :: rest, a =>
    if s == doubleDash then .ok { a with words := a.words.reverse ++ rest }
    else if isLong s || isShort s then
      match if isLong s then readLong flags a s else readLetters flags a (s.drop 1) with
      | .error e => .error e
      | .ok (.settled a) => readFrom flags rest a
      | .ok (.awaiting f a otherwise) =>
        match rest with
        | [] => .error otherwise
        | value :: rest =>
          match a.set f value with
          | .error e => .error e
          | .ok a => readFrom flags rest a
    else readFrom flags rest { a with words := s :: a.words }

/-- Reads a command line against the flags it may have. -/
def Arguments.read (flags : List Flag) (line : List Bytes) : Except FlagError Arguments := readFrom flags line .none

/-! Looking for words before the flags of a command are known. -/

/-- Whether an argument is taken to have its value next. A flag that is not known counts as one. -/
def takesNext (flags : List Flag) (s : Bytes) : Bool :=
  if s.contains 0x3D then false
  else if isLong s then !((longFlag? flags (s.drop 2)).any Flag.isSwitch)
  else
    match s with
    | [0x2D, letter] => !((shortFlag? flags letter).any Flag.isSwitch)
    | _ => false

/-- The words of a command line. A flag that takes the last argument but one ends the search. -/
def wordsOf (flags : List Flag) : List Bytes → List Bytes
  | [] => []
  | s :: rest =>
    if s == doubleDash then []
    else if takesNext flags s then
      match rest with
      | [] | [_] => []
      | _ :: rest => wordsOf flags rest
    else if s.isEmpty || s.head? == some 0x2D then wordsOf flags rest
    else s :: wordsOf flags rest

/-- A command line without the first occurrence of a word. -/
def withoutWord (flags : List Flag) (word : Bytes) : List Bytes → List Bytes
  | [] => []
  | s :: rest =>
    if s == doubleDash then s :: rest
    else if takesNext flags s then
      match rest with
      | [] => [s]
      | value :: rest => s :: value :: withoutWord flags word rest
    else if s == word then rest
    else s :: withoutWord flags word rest

end BoundedRecords.Command
