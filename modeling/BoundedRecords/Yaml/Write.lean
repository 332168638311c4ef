import BoundedRecords.Yaml.Value

/-! Writing a text as a YAML scalar. The plainest form is taken that a reader takes for the same text:
plain, in single quotes, in double quotes with escapes, or as a block of lines. -/
namespace BoundedRecords.Yaml

/-! What a text contains. -/

/-- Characters that need no escape. -/
def isWritable (c : Char) : Bool :=
  let n := c.toNat
  n == 0x0A || (0x20 ≤ n && n ≤ 0x7E) || (0xA0 ≤ n && n ≤ 0xFFFD && n != 0xFEFF)

def isSpecial (c : Char) : Bool := c != '\t' && !isWritable c

/-- The end of the text counts as a blank. -/
def beforeBlank : List Char → Bool
  | [] => true
  | c :: _ => isBlank c

/-- Marks that mean something at the start of a scalar. -/
def isFirstMark (c : Char) : Bool :=
  c == '#' || c == ',' || c == '[' || c == ']' || c == '{' || c == '}' || c == '&' || c == '*' ||
    c == '!' || c == '|' || c == '>' || c == '\'' || c == '"' || c == '%' || c == '@' || c.toNat == 0x60

/-- Whether a colon before a blank or a comment mark after white space follows `previous`. -/
def hasInnerMark : (previous : Char) → List Char → Bool
  | _, [] => false
  | previous, c :: rest =>
    (c == ':' && beforeBlank rest) || (c == '#' && isWhite previous) || hasInnerMark c rest

def startsWithMark : List Char → Bool
  | [] => false
  | c :: rest =>
    isFirstMark c || ((c == '?' || c == ':' || c == '-') && beforeBlank rest)

def startsWithDivider (cs : List Char) : Bool :=
  "---".toList.isPrefixOf cs || "...".toList.isPrefixOf cs

/-- Whether a reader would see more than text in the plain form. -/
def hasMarks (cs : List Char) : Bool :=
  startsWithDivider cs || startsWithMark cs ||
    match cs with
    | [] => false
    | c :: rest => hasInnerMark c rest

/-- Whether a character satisfying `p` stands right before one satisfying `q`. -/
def adjacent (p q : Char → Bool) : List Char → Bool
  | a :: b :: rest => (p a && q b) || adjacent p q (b :: rest)
  | _ => false

def isSpace (c : Char) : Bool := c == ' '

def breakBeforeSpace (cs : List Char) : Bool := adjacent isBreak isSpace cs
def spaceBeforeBreak (cs : List Char) : Bool := adjacent isSpace isBreak cs

def fitsSingleQuotes (cs : List Char) : Bool :=
  !(breakBeforeSpace cs || spaceBeforeBreak cs || cs.contains '\t' || cs.any isSpecial)

def fitsPlain (cs : List Char) : Bool :=
  fitsSingleQuotes cs && !cs.any isBreak && !hasMarks cs &&
    cs.head? != some ' ' && cs.getLast? != some ' '

def fitsBlock (cs : List Char) : Bool :=
  !cs.isEmpty && cs.getLast? != some ' ' && !spaceBeforeBreak cs && !cs.any isSpecial

/-! Texts that older readers take for something else. -/

def oldBoolWords : List Bytes :=
  ["y", "Y", "yes", "Yes", "YES", "on", "On", "ON", "n", "N", "no", "No", "NO", "off", "Off", "OFF"].map utf8

/-- Parts of a number in base sixty, each after a colon, with an optional fraction at the end. -/
def sixtiethParts : (fuel : Nat) → (seen : Bool) → Bytes → Bool
  | 0, _, _ => false
  | _ + 1, seen, [] => seen
  | fuel + 1, seen, b :: rest =>
    if b == 0x3A then
      match rest with
      | x :: y :: more =>
        if Bytes.isDigit x && Bytes.isDigit y && x ≤ 0x35 then sixtiethParts fuel true more
        else Bytes.isDigit x && sixtiethParts fuel true (y :: more)
      | [x] => Bytes.isDigit x
      | [] => false
    else seen && b == 0x2E && rest.all fun c => Bytes.isDigit c || c == 0x5F

/-- A number in base sixty. -/
def isBaseSixty (s : Bytes) : Bool :=
  let (_, digits) := Numeral.signOf s
  match digits with
  | [] => false
  | b :: rest =>
    Bytes.isDigit b &&
      sixtiethParts (rest.length + 1) false (rest.dropWhile fun c => Bytes.isDigit c || c == 0x5F)

/-- Whether the plain form of a text is read as text. -/
def readsAsText (s : Bytes) : Bool :=
  (plainValue true s).tag == Tag.str && !isBaseSixty s && !oldBoolWords.contains s

/-! The forms. -/

def upperHexDigit (n : Nat) : Char := if n < 10 then Char.ofNat (48 + n) else Char.ofNat (55 + n)

def upperHex : (width n : Nat) → List Char
  | 0, _ => []
  | width + 1, n => upperHex width (n / 16) ++ [upperHexDigit (n % 16)]

/-- A character inside double quotes. -/
def doubleQuotedChar (c : Char) : List Char :=
  if isWritable c && !isBreak c && c != '"' && c != '\\' then [c]
  else match c.toNat with
    | 0x00 => ['\\', '0']
    | 0x07 => ['\\', 'a']
    | 0x08 => ['\\', 'b']
    | 0x09 => ['\\', 't']
    | 0x0A => ['\\', 'n']
    | 0x0B => ['\\', 'v']
    | 0x0C => ['\\', 'f']
    | 0x0D => ['\\', 'r']
    | 0x1B => ['\\', 'e']
    | 0x22 => ['\\', '"']
    | 0x5C => ['\\', '\\']
    | 0x85 => ['\\', 'N']
    | 0x2028 => ['\\', 'L']
    | 0x2029 => ['\\', 'P']
    | n =>
      if n ≤ 0xFF then '\\' :: 'x' :: upperHex 2 n
      else if n ≤ 0xFFFF then '\\' :: 'u' :: upperHex 4 n
      else '\\' :: 'U' :: upperHex 8 n

def inDoubleQuotes (cs : List Char) : List Char := '"' :: cs.flatMap doubleQuotedChar ++ ['"']

/-- The characters inside single quotes; after a line break the indentation comes first. -/
def singleQuotedFrom (indent : Nat) : (afterBreak : Bool) → List Char → List Char
  | _, [] => []
  | afterBreak, c :: rest =>
    if isBreak c then c :: singleQuotedFrom indent true rest
    else
      (if afterBreak && c != ' ' then List.replicate indent ' ' else []) ++
        (if c == '\'' then ['\'', '\''] else [c]) ++
        singleQuotedFrom indent (afterBreak && c == ' ') rest

def inSingleQuotes (indent : Nat) (cs : List Char) : List Char :=
  '\'' :: singleQuotedFrom indent false cs ++ ['\'']

/-- The lines of a block. `lineStart` tells whether a line was just begun, `afterBreak` whether the
indentation is still due. -/
def blockLinesFrom (indent : Nat) : (lineStart afterBreak : Bool) → List Char → List Char
  | _, _, [] => []
  | lineStart, afterBreak, c :: rest =>
    if isBreak c then c :: blockLinesFrom indent true true rest
    else if afterBreak then
      (if lineStart then [] else ['\n']) ++ List.replicate indent ' ' ++
        c :: blockLinesFrom indent false false rest
    else c :: blockLinesFrom indent false false rest

/-- How the line breaks at the end of a block are to be read. -/
def blockEnding (cs : List Char) : List Char :=
  match cs.reverse with
  | [] => ['-']
  | [c] => if isBreak c then ['+'] else ['-']
  | a :: b :: _ => if !isBreak a then ['-'] else if isBreak b then ['+'] else []

/-- The step of indentation. -/
def indentStep : Nat := 4

def inBlock (indent : Nat) (cs : List Char) : List Char :=
  let hint :=
    match cs with
    | [] => []
    | c :: _ => if c == ' ' || isBreak c then (Nat.repr indentStep).toList else []
  '|' :: hint ++ blockEnding cs ++ blockLinesFrom indent false true cs

/-- A written scalar, and whether it ends with the line break of its last line. -/
structure Written where
  text : List Char
  ended : Bool

def writeBlock (indent : Nat) (cs : List Char) : Written :=
  if fitsBlock cs then ⟨inBlock indent cs, (cs.getLast?.map isBreak).getD false⟩
  else ⟨inDoubleQuotes cs, false⟩

def writePlain (indent : Nat) (cs : List Char) : List Char :=
  if fitsPlain cs then cs
  else if fitsSingleQuotes cs then inSingleQuotes indent cs
  else inDoubleQuotes cs

/-- Base 64 in lines of seventy symbols, as soon as there are that many. -/
def binaryLines : (fuel : Nat) → List Char → List Char
  | 0, cs => cs
  | fuel + 1, cs => if cs.isEmpty then [] else cs.take 70 ++ '\n' :: binaryLines fuel (cs.drop 70)

/-- Writes a text whose lines, if it needs several, are indented by `indent`. Bytes that are no text
are written in base 64. -/
def writeText (indent : Nat) (s : Bytes) : Written :=
  if Utf8.valid s then
    let cs := Utf8.chars s
    if cs.contains '\n' then writeBlock indent cs
    else if readsAsText s then ⟨writePlain indent cs, false⟩
    else ⟨inDoubleQuotes cs, false⟩
  else
    let cs := (Base64.encode s).map fun b => Char.ofNat b.toNat
    let w :=
      if 70 ≤ cs.length then writeBlock indent (binaryLines cs.length cs)
      else ⟨writePlain indent cs, false⟩
    { w with text := "!!binary ".toList ++ w.text }

/-- A line with a key and its value, under `depth` levels of keys. -/
def writeEntry (depth : Nat) (key : String) (w : Written) : List Char :=
  List.replicate (depth * indentStep) ' ' ++ key.toList ++ ':' :: ' ' :: w.text ++
    (if w.ended then [] else ['\n'])

def writeTextEntry (depth : Nat) (key : String) (s : Bytes) : List Char :=
  writeEntry depth key (writeText ((depth + 1) * indentStep) s)

def writeInt (n : Int64) : Written := ⟨(Decimal.ofInt64 n).map fun b => Char.ofNat b.toNat, false⟩

/-- A key whose value is on the lines below it. -/
def writeSection (key : String) : List Char := key.toList ++ [':', '\n']

end BoundedRecords.Yaml
