import BoundedRecords.Yaml.Scanner

/-! The tree of a YAML document. Anchored nodes are kept in a table, and an alias refers to the table,
so that a node may be referred to from inside itself. -/
namespace BoundedRecords.Yaml

inductive Node where
  /-- `tag` is the written tag, if any; `plain` tells a scalar without quotes. -/
  | scalar (line : Nat) (tag : Option Bytes) (plain : Bool) (text : Bytes)
  | sequence (line : Nat) (tag : Option Bytes) (items : List Node)
  | mapping (line : Nat) (tag : Option Bytes) (entries : List (Node × Node))
  | alias (line : Nat) (name : Bytes) (target : Nat)

namespace Node

/-- Lines are counted from one. -/
def line : Node → Nat
  | .scalar line .. => line
  | .sequence line .. => line
  | .mapping line .. => line
  | .alias line .. => line

end Node

structure Document where
  root : Node
  /-- The anchored nodes by their number; a node whose own text is not complete has none yet. -/
  anchored : List (Option Node)
  /-- The number of its tokens, which bounds how deep its nodes are nested. -/
  size : Nat

namespace Document

def target? (d : Document) (n : Nat) : Option Node := d.anchored[n]?.join

end Document

/-- The state of reading nodes: the tokens ahead, the names of the anchors seen (latest first, each
with its number) and the anchored nodes. -/
structure Reading where
  tokens : List Token
  names : List (List Char × Nat)
  anchored : List (Option Node)
  /-- What tag handles stand for. -/
  handles : List (List Char × List Char)

namespace Reading

def kind? (r : Reading) : Option TokenKind := r.tokens.head?.map Token.kind

def skip (r : Reading) : Reading := { r with tokens := r.tokens.drop 1 }

def line (r : Reading) : Nat := (r.tokens.head?.map Token.line).getD 0

def isNext (r : Reading) (kinds : List TokenKind) : Bool :=
  match r.kind? with
  | some k => kinds.contains k
  | none => false

/-- Gives a new anchor its number. -/
def openAnchor (name : Option (List Char)) (r : Reading) : Option Nat × Reading :=
  match name with
  | none => (none, r)
  | some n =>
    (some r.anchored.length,
      { r with names := (n, r.anchored.length) :: r.names, anchored := r.anchored ++ [none] })

def closeAnchor (number : Option Nat) (n : Node) (r : Reading) : Reading :=
  match number with
  | none => r
  | some k => { r with anchored := r.anchored.set k (some n) }

end Reading

/-- What may stand before a node: an anchor and a tag, in either order. -/
structure Properties where
  anchor : Option (List Char)
  tag : Option (List Char × List Char)
  line : Nat

def properties (r : Reading) : Properties × Reading :=
  let line := r.line
  match r.kind? with
  | some (.anchor a) =>
    let r := r.skip
    match r.kind? with
    | some (.tag h s) => (⟨some a, some (h, s), line⟩, r.skip)
    | _ => (⟨some a, none, line⟩, r)
  | some (.tag h s) =>
    let r := r.skip
    match r.kind? with
    | some (.anchor a) => (⟨some a, some (h, s), line⟩, r.skip)
    | _ => (⟨none, some (h, s), line⟩, r)
  | _ => (⟨none, none, line⟩, r)

def ofChars (cs : List Char) : Bytes := cs.flatMap Utf8.encode

def commonTags : List Char := "tag:yaml.org,2002:".toList

/-- Tags of the common set are written with two exclamation marks. -/
def shortTag (tag : List Char) : Bytes :=
  if commonTags.isPrefixOf tag then ofChars ('!' :: '!' :: tag.drop commonTags.length) else ofChars tag

/-- The tag that a handle and a suffix stand for; a lone exclamation mark is no tag. -/
def resolveTag (r : Reading) : Option (List Char × List Char) → Option (Option Bytes)
  | none => some none
  | some ([], suffix) => some (if suffix == ['!'] then none else some (shortTag suffix))
  | some (handle, suffix) => do
    let start ← r.handles.lookup handle
    let tag := start ++ suffix
    if tag.isEmpty then none else return (if tag == ['!'] then none else some (shortTag tag))

def emptyScalar (line : Nat) : Node := .scalar (line + 1) none true []

mutual

/-- Reads one node. `block` allows indented collections, `indentless` a sequence that is not indented
more than the key before it. -/
def readNode (block indentless : Bool) : (fuel : Nat) → Reading → Option (Node × Reading)
  | 0, _ => none
  | fuel + 1, r =>
    match r.kind? with
    | some (.alias name) => do
      let target ← r.names.lookup name
      return (.alias (r.line + 1) (ofChars name) target, r.skip)
    | _ => do
      let (p, r) := properties r
      let tag ← resolveTag r p.tag
      let line := p.line + 1
      let (number, r) := r.openAnchor p.anchor
      match r.kind?, block, indentless with
      | some .blockEntry, _, true =>
        let (items, r) ← readIndentless fuel [] r
        let n := Node.sequence line tag items
        return (n, r.closeAnchor number n)
      | some (.scalar text plain), _, _ =>
        let n := Node.scalar line tag plain (ofChars text)
        return (n, r.skip.closeAnchor number n)
      | some .flowSequenceStart, _, _ =>
        let (items, r) ← readFlowSequence fuel true [] r.skip
        let n := Node.sequence line tag items
        return (n, r.closeAnchor number n)
      | some .flowMappingStart, _, _ =>
        let (entries, r) ← readFlowMapping fuel true [] r.skip
        let n := Node.mapping line tag entries
        return (n, r.closeAnchor number n)
      | some .blockSequenceStart, true, _ =>
        let (items, r) ← readBlockSequence fuel [] r.skip
        let n := Node.sequence line tag items
        return (n, r.closeAnchor number n)
      | some .blockMappingStart, true, _ =>
        let (entries, r) ← readBlockMapping fuel [] r.skip
        let n := Node.mapping line tag entries
        return (n, r.closeAnchor number n)
      | some _, _, _ =>
        if p.anchor.isSome || p.tag.isSome then
          let n := Node.scalar line tag true []
          return (n, r.closeAnchor number n)
        else none
      | none, _, _ => none

/-- A node, or an empty scalar where one of `ends` follows. -/
def readNodeUnless (ends : List TokenKind) (block indentless : Bool) :
    (fuel : Nat) → (line : Nat) → Reading → Option (Node × Reading)
  | 0, _, _ => none
  | fuel + 1, line, r =>
    if r.tokens.isEmpty then none
    else if r.isNext ends then some (emptyScalar line, r) else readNode block indentless fuel r

def readBlockSequence : (fuel : Nat) → (items : List Node) → Reading → Option (List Node × Reading)
  | 0, _, _ => none
  | fuel + 1, items, r =>
    match r.kind? with
    | some .blockEntry => do
      let (n, r) ← readNodeUnless [.blockEntry, .blockEnd] true false fuel r.line r.skip
      readBlockSequence fuel (n :: items) r
    | some .blockEnd => some (items.reverse, r.skip)
    | _ => none

def readIndentless : (fuel : Nat) → (items : List Node) → Reading → Option (List Node × Reading)
  | 0, _, _ => none
  | fuel + 1, items, r =>
    match r.kind? with
    | some .blockEntry => do
      let (n, r) ← readNodeUnless [.blockEntry, .key, .value, .blockEnd] true false fuel r.line r.skip
      readIndentless fuel (n :: items) r
    | some _ => some (items.reverse, r)
    | none => none

def readBlockMapping : (fuel : Nat) → (entries : List (Node × Node)) → Reading → Option (List (Node × Node) × Reading)
  | 0, _, _ => none
  | fuel + 1, entries, r =>
    match r.kind? with
    | some .key => do
      let (k, r) ← readNodeUnless [.key, .value, .blockEnd] true true fuel r.line r.skip
      let (v, r) ← readBlockValue fuel r
      readBlockMapping fuel ((k, v) :: entries) r
    | some .blockEnd => some (entries.reverse, r.skip)
    | _ => none

def readBlockValue : (fuel : Nat) → Reading → Option (Node × Reading)
  | 0, _ => none
  | fuel + 1, r =>
    match r.kind? with
    | some .value => readNodeUnless [.key, .value, .blockEnd] true true fuel r.line r.skip
    | some _ => some (emptyScalar r.line, r)
    | none => none

def readFlowSequence : (fuel : Nat) → (first : Bool) → (items : List Node) → Reading → Option (List Node × Reading)
  | 0, _, _, _ => none
  | fuel + 1, first, items, r =>
    match r.kind? with
    | none => none
    | some .flowSequenceEnd => some (items.reverse, r.skip)
    | some k =>
      if !first && k != .flowEntry then none
      else
        let r := if first then r else r.skip
        match r.kind? with
        | none => none
        | some .flowSequenceEnd => some (items.reverse, r.skip)
        | some .key => do
          let line := r.line
          let (k, r) ← readPairKey fuel r.skip
          let (v, r) ← readFlowValue [.flowEntry, .flowSequenceEnd] fuel r
          readFlowSequence fuel false (.mapping (line + 1) none [(k, v)] :: items) r
        | some _ => do
          let (n, r) ← readNode false false fuel r
          readFlowSequence fuel false (n :: items) r

/-- The key of a single pair inside square brackets. A key left out takes the token after it along. -/
def readPairKey : (fuel : Nat) → Reading → Option (Node × Reading)
  | 0, _ => none
  | fuel + 1, r =>
    if r.tokens.isEmpty then none
    else if r.isNext [.value, .flowEntry, .flowSequenceEnd] then some (emptyScalar r.line, r.skip)
    else readNode false false fuel r

/-- The value of a pair inside brackets, empty where no colon follows. -/
def readFlowValue (ends : List TokenKind) : (fuel : Nat) → Reading → Option (Node × Reading)
  | 0, _ => none
  | fuel + 1, r =>
    match r.kind? with
    | some .value =>
      let r := r.skip
      readNodeUnless ends false false fuel r.line r
    | some _ => some (emptyScalar r.line, r)
    | none => none

def readFlowMapping : (fuel : Nat) → (first : Bool) → (entries : List (Node × Node)) → Reading →
    Option (List (Node × Node) × Reading)
  | 0, _, _, _ => none
  | fuel + 1, first, entries, r =>
    match r.kind? with
    | none => none
    | some .flowMappingEnd => some (entries.reverse, r.skip)
    | some k =>
      if !first && k != .flowEntry then none
      else
        let r := if first then r else r.skip
        match r.kind? with
        | none => none
        | some .flowMappingEnd => some (entries.reverse, r.skip)
        | some .key => do
          let r := r.skip
          let (k, r) ← readNodeUnless [.value, .flowEntry, .flowMappingEnd] false false fuel r.line r
          let (v, r) ← readFlowValue [.flowEntry, .flowMappingEnd] fuel r
          readFlowMapping fuel false ((k, v) :: entries) r
        | some _ => do
          let (k, r) ← readNode false false fuel r
          readFlowMapping fuel false ((k, emptyScalar r.line) :: entries) r

end

/-! Documents. -/

/-- The directives before a document: at most one version, which must be 1.1, and tag handles without
repetition. -/
def readDirectives : (fuel : Nat) → (version : Bool) → Reading → Option Reading
  | 0, _, _ => none
  | fuel + 1, version, r =>
    match r.kind? with
    | some (.version major minor) =>
      if version || major != 1 || minor != 1 then none else readDirectives fuel true r.skip
    | some (.tagHandle handle start) =>
      if (r.handles.lookup handle).isSome then none
      else readDirectives fuel version { r.skip with handles := (handle, start) :: r.handles }
    | _ => some r

def defaultHandles : List (List Char × List Char) := [("!".toList, "!".toList), ("!!".toList, commonTags)]

/-- The root of the first document, and what follows it. The outer option is none if the text cannot
be read, the inner one if there is no document. -/
def readRoot (fuel : Nat) (r : Reading) : Option (Option (Node × Reading)) :=
  match r.kind? with
  | none => none
  | some .streamEnd => some none
  | some (.version _ _) | some (.tagHandle _ _) | some .documentStart => do
    let r ← readDirectives fuel false r
    if !r.isNext [.documentStart] then none
    else
      let r := { r.skip with handles := r.handles ++ defaultHandles }
      match r.kind? with
      | none => none
      | some (.version _ _) | some (.tagHandle _ _) | some .documentStart | some .documentEnd
      | some .streamEnd => some (some (emptyScalar r.line, r))
      | some _ => (readNode true false fuel r).map some
  | some _ => (readNode true false fuel { r with handles := defaultHandles }).map some

/-- The first document of a text. What comes after its root is not looked at, except that one more
token must be there. -/
def Document.ofTokens? (tokens : List Token) : Option (Option Document) :=
  match readRoot (4 * tokens.length + 4) ⟨tokens.drop 1, [], [], []⟩ with
  | none => none
  | some none => some none
  | some (some (n, r)) => if r.tokens.isEmpty then none else some (some ⟨n, r.anchored, tokens.length⟩)

/-- The first document of a file: none if the file breaks the rules, and no document if it is empty. -/
def Document.read (s : Bytes) : Option (Option Document) := do
  let text ← charsOf s
  Document.ofTokens? (tokensOf text)

end BoundedRecords.Yaml
