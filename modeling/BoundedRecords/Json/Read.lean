import BoundedRecords.Json.Basic

/-! Reading JSON byte by byte. The reader keeps the open brackets on a stack, so that of two faults in a
text the one further left is found first, and so that a text may end at any byte. -/
namespace BoundedRecords.Json

/-- An open bracket with what was read inside it, latest first. -/
inductive Frame where
  | array (items : List Json)
  | object (members : List (Bytes × Json)) (key : Bytes)

/-- How far a number has been read. -/
inductive NumberPart where
  | sign
  | zero
  | whole
  | point
  | fraction
  | exponent
  | exponentSign
  | exponentDigits
deriving DecidableEq

/-- How far an escape has been read: nothing of it, its backslash, or all but so many hexadecimal
digits. -/
inductive EscapePart where
  | none
  | mark
  | hex (left : Nat)
deriving DecidableEq

/-- What is being read. Texts are kept latest byte first. -/
inductive Mode where
  | value
  | firstItem
  | firstKey
  | nextKey
  | string (isKey : Bool) (raw : Bytes) (escape : EscapePart)
  | colon
  | number (raw : Bytes) (part : NumberPart)
  | word (left : Bytes) (v : Json)
  | afterItem
  /-- A value outside all brackets has been read. -/
  | complete (v : Json)

structure Reader where
  stack : List Frame
  mode : Mode

def start : Reader := ⟨[], .value⟩

/-- The deepest nesting of brackets. -/
def maxDepth : Nat := 10000

def isSpace (b : UInt8) : Bool := b == 0x20 || b == 0x09 || b == 0x0A || b == 0x0D

/-! Strings. -/

def hexNumber? (a b c d : UInt8) : Option Nat := do
  let w ← Hex.value? a
  let x ← Hex.value? b
  let y ← Hex.value? c
  let z ← Hex.value? d
  return ((w * 16 + x) * 16 + y) * 16 + z

def isSurrogate (n : Nat) : Bool := 0xD800 ≤ n && n < 0xE000

/-- The character of two surrogates in the right order. -/
def pair? (high low : Nat) : Option Char :=
  if 0xD800 ≤ high && high < 0xDC00 && 0xDC00 ≤ low && low < 0xE000 then
    some (Char.ofNat (0x10000 + (high - 0xD800) * 0x400 + (low - 0xDC00)))
  else none

def replacement : Char := Char.ofNat 0xFFFD

/-- The character of an escape with one letter. -/
def letterOf (b : UInt8) : UInt8 :=
  match b with
  | 0x62 => 0x08
  | 0x66 => 0x0C
  | 0x6E => 0x0A
  | 0x72 => 0x0D
  | 0x74 => 0x09
  | b => b

/-- The first character of the text between quotes, and the text after it. A surrogate without its
partner and a stray byte give the replacement character. -/
def unquoteFirst : Bytes → Option (Bytes × Bytes)
  | [] => none
  | 0x5C :: 0x75 :: a :: b :: c :: d :: rest =>
    let n := (hexNumber? a b c d).getD 0
    if isSurrogate n then
      let second :=
        match rest with
        | 0x5C :: 0x75 :: e :: f :: g :: h :: after =>
          ((hexNumber? e f g h).bind (pair? n)).map fun ch => (ch, after)
        | _ => none
      match second with
      | some (ch, after) => some (Utf8.encode ch, after)
      | none => some (Utf8.encode replacement, rest)
    else some (Utf8.encode (Char.ofNat n), rest)
  | 0x5C :: e :: rest => some ([letterOf e], rest)
  | b :: rest =>
    match Utf8.head? (b :: rest) with
    | some (ch, after) => some (Utf8.encode ch, after)
    | none => some (Utf8.encode replacement, rest)

def unquoteOnto : (fuel : Nat) → (done : Bytes) → Bytes → Bytes
  | 0, done, _ => done
  | fuel + 1, done, s =>
    match unquoteFirst s with
    | none => done
    | some (ch, rest) => unquoteOnto fuel (ch.reverse ++ done) rest

/-- The bytes that the text between two quotes stands for. -/
def unquote (s : Bytes) : Bytes := (unquoteOnto s.length [] s).reverse

/-! Steps. -/

/-- What one byte does: it belongs to the text, which goes on or is closed by it; it comes after a
complete value; or it is wrong. -/
inductive Progress where
  | next (r : Reader)
  | closed (v : Json)
  | before (v : Json)
  | wrong

/-- The reader after a value inside the brackets of `stack`. -/
def place (stack : List Frame) (v : Json) : Reader :=
  match stack with
  | [] => ⟨[], .complete v⟩
  | .array items :: frames => ⟨.array (v :: items) :: frames, .afterItem⟩
  | .object members key :: frames => ⟨.object ((key, v) :: members) [] :: frames, .afterItem⟩

/-- A bracket closes the value `v`, which counts as read at once. -/
def close (frames : List Frame) (v : Json) : Progress :=
  match frames with
  | [] => .closed v
  | frames => .next (place frames v)

/-- A value begins with `b`. -/
def beginValue (stack : List Frame) (b : UInt8) : Progress :=
  let enter (f : Frame) (mode : Mode) : Progress :=
    if maxDepth ≤ stack.length then .wrong else .next ⟨f :: stack, mode⟩
  if b == 0x7B then enter (.object [] []) .firstKey
  else if b == 0x5B then enter (.array []) .firstItem
  else if b == 0x22 then .next ⟨stack, .string false [] .none⟩
  else if b == 0x2D then .next ⟨stack, .number [b] .sign⟩
  else if b == 0x30 then .next ⟨stack, .number [b] .zero⟩
  else if Bytes.isDigit b then .next ⟨stack, .number [b] .whole⟩
  else if b == 0x74 then .next ⟨stack, .word (utf8 "rue") (.bool true)⟩
  else if b == 0x66 then .next ⟨stack, .word (utf8 "alse") (.bool false)⟩
  else if b == 0x6E then .next ⟨stack, .word (utf8 "ull") .null⟩
  else .wrong

/-- The byte after an item of the innermost bracket. -/
def afterItem (stack : List Frame) (b : UInt8) : Progress :=
  match stack with
  | .array items :: frames =>
    if b == 0x2C then .next ⟨stack, .value⟩
    else if b == 0x5D then close frames (.array items.reverse)
    else .wrong
  | .object members _ :: frames =>
    if b == 0x2C then .next ⟨stack, .nextKey⟩
    else if b == 0x7D then close frames (.object members.reverse)
    else .wrong
  | [] => .wrong

/-- The part of a number that `b` continues with; none if the number ends before it. -/
def numberNext (part : NumberPart) (b : UInt8) : Option NumberPart :=
  let digit := Bytes.isDigit b
  let exponentMark := b == 0x65 || b == 0x45
  match part with
  | .sign => if b == 0x30 then some .zero else if digit then some .whole else none
  | .zero => if b == 0x2E then some .point else if exponentMark then some .exponent else none
  | .whole =>
    if digit then some .whole
    else if b == 0x2E then some .point else if exponentMark then some .exponent else none
  | .point => if digit then some .fraction else none
  | .fraction => if digit then some .fraction else if exponentMark then some .exponent else none
  | .exponent =>
    if b == 0x2B || b == 0x2D then some .exponentSign
    else if digit then some .exponentDigits else none
  | .exponentSign => if digit then some .exponentDigits else none
  | .exponentDigits => if digit then some .exponentDigits else none

/-- Whether a number may end after this part. -/
def NumberPart.ends : NumberPart → Bool
  | .zero | .whole | .fraction | .exponentDigits => true
  | _ => false

/-- The reader after a string, which is a key or a value. -/
def stringRead (stack : List Frame) (isKey : Bool) (raw : Bytes) : Reader :=
  let text := unquote raw.reverse
  if isKey then
    match stack with
    | .object members _ :: frames => ⟨.object members text :: frames, .colon⟩
    | frames => ⟨frames, .colon⟩
  else place stack (.string text)

def isEscapeLetter (b : UInt8) : Bool :=
  b == 0x22 || b == 0x5C || b == 0x2F || b == 0x62 || b == 0x66 || b == 0x6E || b == 0x72 || b == 0x74

def stringStep (stack : List Frame) (isKey : Bool) (raw : Bytes) (escape : EscapePart) (b : UInt8) : Progress :=
  match escape with
  | .none =>
    if b == 0x22 then .next (stringRead stack isKey raw)
    else if b == 0x5C then .next ⟨stack, .string isKey (b :: raw) .mark⟩
    else if b < 0x20 then .wrong
    else .next ⟨stack, .string isKey (b :: raw) .none⟩
  | .mark =>
    if b == 0x75 then .next ⟨stack, .string isKey (b :: raw) (.hex 4)⟩
    else if isEscapeLetter b then .next ⟨stack, .string isKey (b :: raw) .none⟩
    else .wrong
  | .hex left =>
    if (Hex.value? b).isSome then
      .next ⟨stack, .string isKey (b :: raw) (if left ≤ 1 then .none else .hex (left - 1))⟩
    else .wrong

/-- The byte after a complete value, inside brackets or outside of all. -/
def afterValue (r : Reader) (b : UInt8) : Progress :=
  match r.mode with
  | .complete v => .before v
  | _ => if isSpace b then .next r else afterItem r.stack b

def step (r : Reader) (b : UInt8) : Progress :=
  match r.mode with
  | .string isKey raw escape => stringStep r.stack isKey raw escape b
  | .number raw part =>
    match numberNext part b with
    | some part => .next ⟨r.stack, .number (b :: raw) part⟩
    | none => if part.ends then afterValue (place r.stack (.number raw.reverse)) b else .wrong
  | .word left v =>
    match left with
    | c :: more =>
      if b != c then .wrong
      else .next (if more.isEmpty then place r.stack v else ⟨r.stack, .word more v⟩)
    | [] => .wrong
  | .afterItem => afterValue r b
  | .complete _ => afterValue r b
  | .value => if isSpace b then .next r else beginValue r.stack b
  | .firstItem =>
    if isSpace b then .next r
    else if b == 0x5D then afterItem r.stack b
    else beginValue r.stack b
  | .firstKey =>
    if isSpace b then .next r
    else if b == 0x7D then afterItem r.stack b
    else if b == 0x22 then .next ⟨r.stack, .string true [] .none⟩
    else .wrong
  | .nextKey =>
    if isSpace b then .next r
    else if b == 0x22 then .next ⟨r.stack, .string true [] .none⟩
    else .wrong
  | .colon =>
    if isSpace b then .next r
    else if b == 0x3A then .next ⟨r.stack, .value⟩
    else .wrong

/-- What a text gives: a value with the bytes after it, a fault, or a reader that needs more. -/
inductive Result where
  | value (v : Json) (rest : Bytes)
  | wrong
  | short (r : Reader)

def run (r : Reader) : Bytes → Result
  | [] => .short r
  | b :: rest =>
    match step r b with
    | .next r => run r rest
    | .closed v => .value v rest
    | .before v => .value v (b :: rest)
    | .wrong => .wrong

/-- The value of a reader at the end of the text, which ends a number or a word. -/
def atEnd (r : Reader) : Option Json :=
  match step r 0x20 with
  | .before v => some v
  | _ => none

/-- Whether nothing but white space was read. -/
def Reader.isBlank (r : Reader) : Bool :=
  match r.stack, r.mode with
  | [], .value => true
  | _, _ => false

/-- Reads a whole text that is one value. -/
def parse (s : Bytes) : Option Json :=
  match run start s with
  | .value v rest => if rest.all isSpace then some v else none
  | .short r => atEnd r
  | .wrong => none

end BoundedRecords.Json
