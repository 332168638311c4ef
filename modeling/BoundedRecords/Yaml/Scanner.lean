import BoundedRecords.Yaml.Scalar
import BoundedRecords.Yaml.Token

/-! Splitting a YAML text into tokens. A key is known as one only when its colon is met, so the scanner
remembers for each level of brackets where a key may have begun, and puts the tokens of the key in
front of it afterwards. Indentation opens and closes blocks. -/
namespace BoundedRecords.Yaml

/-- A place where a key may have begun. -/
structure KeyMark where
  possible : Bool
  /-- Nothing but a key can stand here. -/
  required : Bool
  /-- How many tokens come before it. -/
  position : Nat
  line : Nat
  column : Nat
  index : Nat

def KeyMark.none : KeyMark := ⟨false, false, 0, 0, 0, 0⟩

structure Scanner where
  cursor : Cursor
  /-- The column of the current block, -1 outside of all blocks. -/
  indent : Int
  /-- The columns of the surrounding blocks, innermost first. -/
  indents : List Int
  /-- How many brackets are open. -/
  flow : Nat
  keyAllowed : Bool
  /-- The mark of the current level of brackets. -/
  mark : KeyMark
  /-- The marks of the surrounding levels, innermost first. -/
  marks : List KeyMark
  /-- Latest first. -/
  tokens : List Token

namespace Scanner

/-- The deepest nesting that is read. -/
def maxDepth : Nat := 10000

def start (text : List Char) : Scanner :=
  ⟨Cursor.start text, -1, [], 0, true, KeyMark.none, [], [⟨.streamStart, 0⟩]⟩

def moveTo (s : Scanner) (c : Cursor) : Scanner := { s with cursor := c }

def emit (s : Scanner) (kind : TokenKind) (line : Nat) : Scanner :=
  { s with tokens := ⟨kind, line⟩ :: s.tokens }

/-- Puts a token after the first `position` ones. -/
def insert (s : Scanner) (position : Nat) (t : Token) : Scanner :=
  { s with tokens := s.tokens.insertIdx (s.tokens.length - position) t }

/-! Blocks. -/

def closeFrom (column : Int) (line : Nat) : List Int → Int → List Token → Int × List Int × List Token
  | [], indent, tokens => (indent, [], tokens)
  | outer :: indents, indent, tokens =>
    if column < indent then closeFrom column line indents outer (⟨.blockEnd, line⟩ :: tokens)
    else (indent, outer :: indents, tokens)

/-- Ends the blocks that are indented more than `column`. -/
def closeBlocks (column : Int) (s : Scanner) : Scanner :=
  if s.flow != 0 then s
  else
    let (indent, indents, tokens) := closeFrom column s.cursor.line s.indents s.indent s.tokens
    { s with indent := indent, indents := indents, tokens := tokens }

/-- Begins a block at `column` if it lies deeper than the current one. Its token goes to `position`,
or to the end. -/
def openBlock (column : Nat) (position : Option Nat) (kind : TokenKind) (line : Nat) (s : Scanner) : Option Scanner :=
  if s.flow != 0 || (column : Int) ≤ s.indent then some s
  else if maxDepth ≤ s.indents.length then none
  else
    let s := { s with indent := column, indents := s.indent :: s.indents }
    match position with
    | some p => some (s.insert p ⟨kind, line⟩)
    | none => some (s.emit kind line)

/-! Keys. -/

/-- Gives up the possible key of the current level. -/
def dropKey (s : Scanner) : Option Scanner :=
  if s.mark.possible && s.mark.required then none
  else some { s with mark := { s.mark with possible := false } }

/-- Marks the current place as a possible key, where one is allowed. -/
def markKey (s : Scanner) : Option Scanner :=
  if s.keyAllowed then do
    let c := s.cursor
    let s ← s.dropKey
    return { s with mark := {
      possible := true
      required := s.flow == 0 && s.indent == c.column
      position := s.tokens.length
      line := c.line
      column := c.column
      index := c.index } }
  else some s

/-- Whether the marked key can still be one: it stands on this line and is not too long. A required
key that cannot is an error. -/
def keyStands (s : Scanner) : Option Bool :=
  if !s.mark.possible then some false
  else if s.mark.line < s.cursor.line || s.mark.index + 1024 < s.cursor.index then
    if s.mark.required then none else some false
  else some true

/-! White space and comments. -/

/-- Reads a comment, and then all lines that follow it as long as they hold comments or nothing. -/
def skipComments : (fuel : Nat) → Cursor → Cursor
  | 0, c => c
  | fuel + 1, c =>
    let ended := c.skipWhile (!isBreak ·)
    let next := ended.skipWhite
    if ended.rest.isEmpty || next.rest.head? != some '#' then ended else skipComments fuel next

/-- Reads up to the next token. Tabs are no indentation. -/
def skipToToken : (fuel : Nat) → Scanner → Scanner
  | 0, s => s
  | fuel + 1, s =>
    let c := s.cursor
    let c := if c.column == 0 && c.rest.head? == some (Char.ofNat 0xFEFF) then c.skip else c
    let c := c.skipWhile fun ch => ch == ' ' || (ch == '\t' && (s.flow != 0 || !s.keyAllowed))
    let c := if c.rest.head? == some '#' then skipComments (c.rest.length + 1) c else c
    if !c.rest.isEmpty && atBreak c.rest then
      skipToToken fuel { s with cursor := c.skipLine, keyAllowed := s.keyAllowed || s.flow == 0 }
    else s.moveTo c

/-- Reads a comment on the line of the token just read. -/
def skipLineComment (s : Scanner) : Scanner :=
  if s.cursor.fresh || (s.tokens.head?.map Token.kind) == some .blockEntry then s
  else
    let c := s.cursor.skipWhile isBlank
    if c.rest.head? == some '#' then s.moveTo (c.skipWhile (!isBreak ·)) else s

/-! Tokens. -/

def streamEnd (s : Scanner) : Option Scanner := do
  let line := if s.cursor.column == 0 then s.cursor.line else s.cursor.line + 1
  let s ← (s.closeBlocks (-1)).dropKey
  return { s.emit .streamEnd line with keyAllowed := false }

def documentMark (kind : TokenKind) (s : Scanner) : Option Scanner := do
  let s ← (s.closeBlocks (-1)).dropKey
  return { (s.emit kind s.cursor.line).moveTo (s.cursor.advance 3) with keyAllowed := false }

def directiveLine (s : Scanner) : Option Scanner := do
  let s ← (s.closeBlocks (-1)).dropKey
  let (d, c) ← directive s.cursor
  let kind : TokenKind :=
    match d with
    | .version major minor => .version major minor
    | .tagHandle handle start => .tagHandle handle start
  return { (s.emit kind s.cursor.line).moveTo c with keyAllowed := false }

def flowStart (kind : TokenKind) (s : Scanner) : Option Scanner := do
  let s ← s.markKey
  if maxDepth ≤ s.flow then none
  else
    return { (s.emit kind s.cursor.line).moveTo s.cursor.skip with
      flow := s.flow + 1, mark := KeyMark.none, marks := s.mark :: s.marks, keyAllowed := true }

def leaveFlow (s : Scanner) : Scanner :=
  match s.marks with
  | outer :: marks => { s with flow := s.flow - 1, mark := outer, marks := marks }
  | [] => s

def flowEnd (kind : TokenKind) (s : Scanner) : Option Scanner := do
  let s ← s.dropKey
  let s := s.leaveFlow
  return { (s.emit kind s.cursor.line).moveTo s.cursor.skip with keyAllowed := false }

def flowEntry (s : Scanner) : Option Scanner := do
  let s ← s.dropKey
  return { (s.emit .flowEntry s.cursor.line).moveTo s.cursor.skip with keyAllowed := true }

def blockEntry (s : Scanner) : Option Scanner := do
  let line := s.cursor.line
  if s.flow == 0 && !s.keyAllowed then none
  else
    let s ← s.openBlock s.cursor.column none .blockSequenceStart line
    let s ← s.dropKey
    return { (s.emit .blockEntry line).moveTo s.cursor.skip with keyAllowed := true }

def keyMark (s : Scanner) : Option Scanner := do
  let line := s.cursor.line
  if s.flow == 0 && !s.keyAllowed then none
  else
    let s ← s.openBlock s.cursor.column none .blockMappingStart line
    let s ← s.dropKey
    return { (s.emit .key line).moveTo s.cursor.skip with keyAllowed := s.flow == 0 }

def valueMark (s : Scanner) : Option Scanner := do
  let line := s.cursor.line
  let stands ← s.keyStands
  let s ←
    if stands then do
      let k := s.mark
      let s := s.insert k.position ⟨.key, k.line⟩
      let s ← s.openBlock k.column (some k.position) .blockMappingStart k.line
      pure { s with mark := { k with possible := false }, keyAllowed := false }
    else if s.flow == 0 && !s.keyAllowed then none
    else do
      let s ← s.openBlock s.cursor.column none .blockMappingStart line
      pure { s with mark := { s.mark with possible := false }, keyAllowed := s.flow == 0 }
  return (s.emit .value line).moveTo s.cursor.skip

def anchorToken (kind : List Char → TokenKind) (s : Scanner) : Option Scanner := do
  let s ← s.markKey
  let (name, c) ← anchorName s.cursor.skip
  return { (s.emit (kind name) s.cursor.line).moveTo c with keyAllowed := false }

def tagToken (s : Scanner) : Option Scanner := do
  let s ← s.markKey
  let (handle, suffix, c) ← tagOf s.cursor
  return { (s.emit (.tag handle suffix) s.cursor.line).moveTo c with keyAllowed := false }

def blockScalarToken (literal : Bool) (s : Scanner) : Option Scanner := do
  let s ← s.dropKey
  let (text, c) ← blockScalar literal s.indent s.cursor
  return { (s.emit (.scalar text false) s.cursor.line).moveTo c with keyAllowed := true }

def quotedToken (single : Bool) (s : Scanner) : Option Scanner := do
  let s ← s.markKey
  let c := s.cursor.skip
  let fuel := c.rest.length + 1
  let (text, c) ← if single then singleQuoted fuel [] c else doubleQuoted fuel [] c
  return { (s.emit (.scalar text false) s.cursor.line).moveTo c with keyAllowed := false }

def plainToken (s : Scanner) : Option Scanner := do
  let s ← s.markKey
  let c := s.cursor
  let p ← plainScalar (s.flow != 0) (s.indent + 1).toNat (c.rest.length + 1) [] [] c
  return { (s.emit (.scalar p.text true) c.line).moveTo p.cursor with keyAllowed := p.brokeLine }

/-- Characters that begin no plain scalar. -/
def isIndicator (c : Char) : Bool :=
  c == '-' || c == '?' || c == ':' || c == ',' || c == '[' || c == ']' || c == '{' || c == '}' ||
    c == '#' || c == '&' || c == '*' || c == '!' || c == '|' || c == '>' || c == '\'' || c == '"' ||
    c == '%' || c == '@' || c.toNat == 0x60

/-- Three marks count as plain text after all where no white space follows them. -/
def startsPlain (flow : Bool) (ch : Char) (rest : List Char) : Bool :=
  (!isWhite ch && !isIndicator ch) ||
    (ch == '-' && !(rest.head?.map isBlank).getD false) ||
    (!flow && (ch == '?' || ch == ':') && !atWhite rest)

/-- The token at the cursor. -/
def token (s : Scanner) : Option Scanner :=
  let flow := s.flow != 0
  match s.cursor.rest with
  | [] => s.streamEnd
  | ch :: rest =>
    if s.cursor.column == 0 && ch == '%' then s.directiveLine
    else if s.cursor.atDocumentMark '-' then s.documentMark .documentStart
    else if s.cursor.atDocumentMark '.' then s.documentMark .documentEnd
    else if ch == '[' then s.flowStart .flowSequenceStart
    else if ch == '{' then s.flowStart .flowMappingStart
    else if ch == ']' then s.flowEnd .flowSequenceEnd
    else if ch == '}' then s.flowEnd .flowMappingEnd
    else if ch == ',' then s.flowEntry
    else if ch == '-' && atWhite rest then s.blockEntry
    else if ch == '?' && (flow || atWhite rest) then s.keyMark
    else if ch == ':' && (flow || atWhite rest) then s.valueMark
    else if ch == '*' then s.anchorToken .alias
    else if ch == '&' then s.anchorToken .anchor
    else if ch == '!' then s.tagToken
    else if ch == '|' && !flow then s.blockScalarToken true
    else if ch == '>' && !flow then s.blockScalarToken false
    else if ch == '\'' then s.quotedToken true
    else if ch == '"' then s.quotedToken false
    else if startsPlain flow ch rest then s.plainToken
    else none

/-- Reads one token, with the white space before it and a comment after it. -/
def step (s : Scanner) : Option Scanner :=
  let s := skipToToken (s.cursor.rest.length + 1) s
  let s := s.closeBlocks s.cursor.column
  s.token.map skipLineComment

/-- The tokens up to the end of the text, latest first. When a step fails the two tokens before it are
lost as well, since a token is given out only when two more are known. -/
def run : (fuel : Nat) → Scanner → List Token
  | 0, s => s.tokens
  | fuel + 1, s =>
    match s.step with
    | none => s.tokens.drop 2
    | some next => if next.tokens.head?.map Token.kind == some .streamEnd then next.tokens else run fuel next

end Scanner

/-- The tokens of a text, as far as it can be read. A text read to its end ends with `streamEnd`. -/
def tokensOf (text : List Char) : List Token :=
  (Scanner.run (text.length + 1) (Scanner.start text)).reverse

end BoundedRecords.Yaml
