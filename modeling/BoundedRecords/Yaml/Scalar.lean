import BoundedRecords.Yaml.Cursor

/-! Reading the text of one scalar, one name or one tag. Each reader starts at the first character
of what it reads and returns the text and the place after it; none when the text breaks a rule. -/
namespace BoundedRecords.Yaml

/-! Quoted scalars. -/

/-- The character of a one-letter escape. -/
def escapeOf (c : Char) : Option Nat :=
  match c with
  | '0' => some 0
  | 'a' => some 7
  | 'b' => some 8
  | 't' | '\t' => some 9
  | 'n' => some 10
  | 'v' => some 11
  | 'f' => some 12
  | 'r' => some 13
  | 'e' => some 27
  | ' ' => some 0x20
  | '"' => some 0x22
  | '/' => some 0x2F
  | '\'' => some 0x27
  | '\\' => some 0x5C
  | 'N' => some 0x85
  | '_' => some 0xA0
  | 'L' => some 0x2028
  | 'P' => some 0x2029
  | _ => none

/-- How many hexadecimal digits follow the letter of an escape. -/
def escapeWidth (c : Char) : Option Nat :=
  match c with
  | 'x' => some 2
  | 'u' => some 4
  | 'U' => some 8
  | _ => none

def hexValue (c : Char) : Option Nat :=
  if c.isDigit then some (c.toNat - 48)
  else if 'a' ≤ c && c ≤ 'f' then some (c.toNat - 87)
  else if 'A' ≤ c && c ≤ 'F' then some (c.toNat - 55)
  else none

def hexNumber : (width : Nat) → (value : Nat) → List Char → Option Nat
  | 0, value, _ => some value
  | width + 1, value, c :: rest =>
    match hexValue c with
    | some d => hexNumber width (value * 16 + d) rest
    | none => none
  | _ + 1, _, [] => none

/-- The character a number stands for, if it is one. -/
def scalarValue? (n : Nat) : Option Char :=
  if n < 0xD800 || (0xE000 ≤ n && n < 0x110000) then some (Char.ofNat n) else none

/-- The character after a backslash, and how many characters its escape takes. -/
def escaped : List Char → Option (Char × Nat)
  | [] => none
  | c :: rest =>
    match escapeOf c, escapeWidth c with
    | some n, _ => some (Char.ofNat n, 1)
    | none, some width => do
      let n ← hexNumber width 0 rest
      let ch ← scalarValue? n
      return (ch, width + 1)
    | none, none => none

/-- Reads on inside single quotes; `text` holds what was read, latest first. -/
def singleQuoted : (fuel : Nat) → (text : List Char) → Cursor → Option (List Char × Cursor)
  | 0, _, _ => none
  | fuel + 1, text, c =>
    if c.atDivider then none
    else match c.rest with
      | [] => none
      | '\'' :: '\'' :: _ => singleQuoted fuel ('\'' :: text) (c.advance 2)
      | '\'' :: _ => some (text.reverse, c.skip)
      | ch :: rest =>
        if isWhite ch then
          singleQuoted fuel ((joinWhite ((ch :: rest).takeWhile isWhite)).reverse ++ text) c.skipWhite
        else singleQuoted fuel (ch :: text) c.skip

/-- Reads on inside double quotes; `text` holds what was read, latest first. -/
def doubleQuoted : (fuel : Nat) → (text : List Char) → Cursor → Option (List Char × Cursor)
  | 0, _, _ => none
  | fuel + 1, text, c =>
    if c.atDivider then none
    else match c.rest with
      | [] => none
      | '"' :: _ => some (text.reverse, c.skip)
      | '\\' :: rest =>
        if !rest.isEmpty && atBreak rest then
          let after := c.skip.skipLine
          let white := after.rest.takeWhile isWhite
          doubleQuoted fuel ((breaksOf white).reverse ++ text) after.skipWhite
        else match escaped rest with
          | some (ch, width) => doubleQuoted fuel (ch :: text) (c.advance (width + 1))
          | none => none
      | ch :: rest =>
        if isWhite ch then
          doubleQuoted fuel ((joinWhite ((ch :: rest).takeWhile isWhite)).reverse ++ text) c.skipWhite
        else doubleQuoted fuel (ch :: text) c.skip

/-! Plain scalars. -/

def isFlowMark (c : Char) : Bool :=
  c == ',' || c == '?' || c == '[' || c == ']' || c == '{' || c == '}'

/-- The characters up to white space, a colon before white space or, inside brackets, a mark of the
bracketed form. -/
def plainRun (flow : Bool) : List Char → List Char
  | [] => []
  | c :: rest =>
    if isWhite c || (c == ':' && atWhite rest) || (flow && isFlowMark c) then []
    else c :: plainRun flow rest

/-- Whether a tab stands where the indentation of a continued line is due. -/
def tabInIndent (indent : Nat) : (column : Option Nat) → List Char → Bool
  | _, [] => false
  | column, c :: rest =>
    if isBreak c then tabInIndent indent (some 0) rest
    else match column with
      | some n => (c == '\t' && n < indent) || tabInIndent indent (some (n + 1)) rest
      | none => tabInIndent indent none rest

structure PlainScalar where
  text : List Char
  cursor : Cursor
  /-- Whether the scalar was followed by a line break, which has been read. -/
  brokeLine : Bool

/-- Reads on in a plain scalar. `white` is the white space read last, which counts only if more of
the scalar follows. -/
def plainScalar (flow : Bool) (indent : Nat) : (fuel : Nat) → (text white : List Char) → Cursor → Option PlainScalar
  | 0, _, _, _ => none
  | fuel + 1, text, white, c =>
    let stop : PlainScalar := ⟨text.reverse, c, white.any isBreak⟩
    if c.atDivider || c.rest.head? == some '#' then some stop
    else
      let run := plainRun flow c.rest
      if run.isEmpty then some stop
      else
        let text := run.reverse ++ ((joinWhite white).reverse ++ text)
        let c := c.advance run.length
        let white := c.rest.takeWhile isWhite
        if white.isEmpty then some ⟨text.reverse, c, false⟩
        else if tabInIndent indent none white then none
        else
          let c := c.skipWhite
          if !flow && c.column < indent then some ⟨text.reverse, c, white.any isBreak⟩
          else plainScalar flow indent fuel text white c

/-! Block scalars. -/

inductive Chomping where
  | strip
  | clip
  | keep
deriving DecidableEq

def chompingOf (c : Char) : Option Chomping :=
  if c == '+' then some .keep else if c == '-' then some .strip else none

/-- The two hints after the mark of a block scalar, in either order, and the place after them. -/
def blockHeader (c : Cursor) : Option (Chomping × Nat × Cursor) :=
  match c.rest with
  | a :: b :: _ =>
    match chompingOf a with
    | some chomping =>
      if b == '0' then none
      else if b.isDigit then some (chomping, b.toNat - 48, c.advance 2)
      else some (chomping, 0, c.skip)
    | none =>
      if a == '0' then none
      else if a.isDigit then
        match chompingOf b with
        | some chomping => some (chomping, a.toNat - 48, c.advance 2)
        | none => some (.clip, a.toNat - 48, c.skip)
      else some (.clip, 0, c)
  | [a] =>
    match chompingOf a with
    | some chomping => some (chomping, 0, c.skip)
    | none =>
      if a == '0' then none
      else if a.isDigit then some (.clip, a.toNat - 48, c.skip)
      else some (.clip, 0, c)
  | [] => some (.clip, 0, c)

/-- Reads empty lines and indentation. With no `indent` known, all leading spaces are indentation and
`widest` is the most seen so far. A tab must not stand in the indentation. -/
def blockBreaks (indent : Nat) : (fuel : Nat) → (widest : Nat) → (breaks : List Char) → Cursor →
    Option (Nat × List Char × Cursor)
  | 0, _, _, _ => none
  | fuel + 1, widest, breaks, c =>
    let spaces := (c.rest.takeWhile (· == ' ')).length
    let c := if indent == 0 then c.advance spaces else c.advance (min spaces (indent - c.column))
    let widest := max widest c.column
    if (indent == 0 || c.column < indent) && c.rest.head? == some '\t' then none
    else if !c.rest.isEmpty && atBreak c.rest then
      blockBreaks indent fuel widest (breaks ++ breaksOf (c.rest.take (c.rest.length - c.skipLine.rest.length))) c.skipLine
    else some (widest, breaks, c)

/-- The indentation of the content: the given one, or that of the first line, but more than that of
the surrounding block. -/
def blockIndent (given : Nat) (surrounding : Int) (widest : Nat) : Nat :=
  if given == 0 then max (max widest (surrounding + 1).toNat) 1 else given

structure BlockText where
  /-- Latest first. -/
  text : List Char
  /-- The break that ends the line read last. -/
  lineEnd : List Char
  /-- The empty lines after it. -/
  breaks : List Char
  /-- Whether the line read last began with a blank. -/
  indented : Bool
  cursor : Cursor

def blockLines (literal : Bool) (indent : Nat) : (fuel : Nat) → BlockText → Option BlockText
  | 0, _ => none
  | fuel + 1, b =>
    let c := b.cursor
    if c.column != indent || c.rest.isEmpty then some b
    else
      let blank := (c.rest.head?.map isBlank).getD false
      let folds := !literal && !b.indented && !blank && b.lineEnd.head? == some '\n'
      let joint := if folds then (if b.breaks.isEmpty then [' '] else []) else b.lineEnd
      let content := c.rest.takeWhile (!isBreak ·)
      let text := content.reverse ++ (b.breaks.reverse ++ (joint.reverse ++ b.text))
      let ended := c.advance content.length
      let next := ended.skipLine
      let lineEnd := breaksOf (ended.rest.take (ended.rest.length - next.rest.length))
      match blockBreaks indent fuel 0 [] next with
      | some (_, breaks, after) => blockLines literal indent fuel ⟨text, lineEnd, breaks, blank, after⟩
      | none => none

/-- Reads a block scalar from its mark on; `surrounding` is the indentation of the block it stands
in, -1 for none. -/
def blockScalar (literal : Bool) (surrounding : Int) (c : Cursor) : Option (List Char × Cursor) := do
  let fuel := c.rest.length + 1
  let (chomping, increment, c) ← blockHeader c.skip
  let c := c.skipWhile isBlank
  let c := if c.rest.head? == some '#' then c.skipWhile (!isBreak ·) else c
  if !atBreak c.rest then none
  else
    let c := c.skipLine
    let given := if increment == 0 then 0 else (max surrounding 0).toNat + increment
    let (widest, breaks, c) ← blockBreaks given fuel 0 [] c
    let indent := blockIndent given surrounding widest
    let b ← blockLines literal indent fuel ⟨[], [], breaks, false, c⟩
    let tail :=
      match chomping with
      | .strip => []
      | .clip => b.lineEnd
      | .keep => b.lineEnd ++ b.breaks
    return (b.text.reverse ++ tail, b.cursor)

/-! Names, tags and directives. -/

/-- The name of an anchor or alias, after its mark. -/
def anchorName (c : Cursor) : Option (List Char × Cursor) :=
  let name := c.rest.takeWhile isWord
  let after := c.advance name.length
  let ends :=
    atWhite after.rest ||
      match after.rest with
      | ch :: _ => ch == '?' || ch == ':' || ch == ',' || ch == ']' || ch == '}' || ch == '%' || ch == '@' || ch.toNat == 0x60
      | [] => true
  if name.isEmpty || !ends then none else some (name, after)

def isTagMark (c : Char) : Bool :=
  isWord c || c == ';' || c == '/' || c == '?' || c == ':' || c == '@' || c == '&' || c == '=' ||
    c == '+' || c == '$' || c == ',' || c == '.' || c == '!' || c == '~' || c == '*' || c == '\'' ||
    c == '(' || c == ')' || c == '[' || c == ']'

/-- A tag handle: an exclamation mark, and a name with another one if there is. -/
def tagHandle (c : Cursor) : Option (List Char × Cursor) :=
  match c.rest with
  | '!' :: rest =>
    let name := rest.takeWhile isWord
    let after := c.advance (name.length + 1)
    match after.rest with
    | '!' :: _ => some ('!' :: name ++ ['!'], after.skip)
    | _ => some ('!' :: name, after)
  | _ => none

/-- Bytes written as percent escapes. -/
def percentBytes : List Char → Bytes × Nat
  | '%' :: a :: b :: rest =>
    match hexValue a, hexValue b with
    | some x, some y =>
      let (more, n) := percentBytes rest
      ((x * 16 + y).toUInt8 :: more, n + 3)
    | _, _ => ([], 0)
  | _ => ([], 0)

/-- The characters of a tag; `text` holds what was read, latest first. -/
def tagText : (fuel : Nat) → (text : List Char) → Cursor → Option (List Char × Cursor)
  | 0, _, _ => none
  | fuel + 1, text, c =>
    match c.rest with
    | '%' :: _ =>
      let (bytes, width) := percentBytes c.rest
      if width == 0 || !Utf8.valid bytes then none
      else tagText fuel ((Utf8.chars bytes).reverse ++ text) (c.advance width)
    | ch :: _ => if isTagMark ch then tagText fuel (ch :: text) c.skip else some (text.reverse, c)
    | [] => some (text.reverse, c)

/-- The handle and the rest of a tag. -/
def tagOf (c : Cursor) : Option (List Char × List Char × Cursor) := do
  let fuel := c.rest.length + 1
  let (handle, suffix, c) ←
    match c.rest with
    | '!' :: '<' :: _ => do
      let (suffix, c) ← tagText fuel [] (c.advance 2)
      if suffix.isEmpty || c.rest.head? != some '>' then none else pure ([], suffix, c.skip)
    | _ => do
      let (handle, c) ← tagHandle c
      if 1 < handle.length && handle.getLast? == some '!' then
        let (suffix, c) ← tagText fuel [] c
        if suffix.isEmpty then none else pure (handle, suffix, c)
      else
        let (suffix, c) ← tagText fuel (handle.drop 1).reverse c
        if suffix.isEmpty then pure ([], ['!'], c) else pure (['!'], suffix, c)
  if atWhite c.rest then some (handle, suffix, c) else none

/-- A number of a version: one to nine digits. -/
def versionNumber (c : Cursor) : Option (Nat × Cursor) :=
  let digits := c.rest.takeWhile Char.isDigit
  if digits.isEmpty || 9 < digits.length then none
  else some (digits.foldl (fun n d => n * 10 + (d.toNat - 48)) 0, c.advance digits.length)

inductive Directive where
  | version (major minor : Nat)
  | tagHandle (handle start : List Char)

def directiveBody (name : List Char) (c : Cursor) : Option (Directive × Cursor) :=
  if name == "YAML".toList then do
    let (major, c) ← versionNumber (c.skipWhile isBlank)
    if c.rest.head? != some '.' then none
    else
      let (minor, c) ← versionNumber c.skip
      return (.version major minor, c)
  else if name == "TAG".toList then do
    let (handle, c) ← tagHandle (c.skipWhile isBlank)
    if handle.getLast? != some '!' || !(c.rest.head?.map isBlank).getD false then none
    else
      let (start, c) ← tagText (c.rest.length + 1) [] (c.skipWhile isBlank)
      if start.isEmpty || !atWhite c.rest then none else return (.tagHandle handle start, c)
  else none

/-- A directive from its mark to the end of its line. -/
def directive (c : Cursor) : Option (Directive × Cursor) := do
  let name := c.skip.rest.takeWhile isWord
  let after := c.skip.advance name.length
  if name.isEmpty || !atWhite after.rest then none
  else
    let (d, c) ← directiveBody name after
    let c := c.skipWhile isBlank
    let c := if c.rest.head? == some '#' then c.skipWhile (!isBreak ·) else c
    if atBreak c.rest then return (d, c.skipLine) else none

end BoundedRecords.Yaml
