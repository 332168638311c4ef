import BoundedRecords.Text.Quoted
import BoundedRecords.Yaml.Value

/-! Filling typed values from a document. A value of the wrong kind is noted and decoding goes on, so
that all problems of a document are told at once; a few faults end it. -/
namespace BoundedRecords.Yaml

inductive Problem where
  /-- A value that does not fit its place. -/
  | mismatch (line : Nat) (tag text : Bytes) (target : Bytes)
  | duplicateKey (line : Nat) (key : Bytes) (firstLine : Nat)
  | fieldRepeated (line : Nat) (field : Bytes) (target : Bytes)
deriving DecidableEq, Repr

/-- The value of a mismatch as it is shown: long ones are cut, collections are not shown. -/
def shownValue (tag text : Bytes) : Bytes :=
  if tag == Tag.seq || tag == Tag.map then text
  else if 10 < text.length then utf8 " `" ++ text.take 7 ++ utf8 "...`"
  else utf8 " `" ++ text ++ utf8 "`"

def Problem.message : Problem → Bytes
  | .mismatch line tag text target =>
    utf8 "line " ++ Decimal.ofNat line ++ utf8 ": cannot unmarshal " ++ tag ++ shownValue tag text ++
      utf8 " into " ++ target
  | .duplicateKey line key firstLine =>
    utf8 "line " ++ Decimal.ofNat line ++ utf8 ": mapping key " ++ Quoted.text key ++
      utf8 " already defined at line " ++ Decimal.ofNat firstLine
  | .fieldRepeated line field target =>
    utf8 "line " ++ Decimal.ofNat line ++ utf8 ": field " ++ field ++ utf8 " already set in type " ++ target

/-- Why a document gives no value. -/
inductive DecodeError where
  | malformed
  | problems (ps : List Problem)
deriving DecidableEq, Repr

def DecodeError.message : DecodeError → Bytes
  | .malformed => utf8 "yaml: SYNTAX"
  | .problems ps =>
    utf8 "yaml: unmarshal errors:\n  " ++ Bytes.join (utf8 "\n  ") (ps.map Problem.message)

/-- Decoding keeps the problems met so far, and may end without a value. -/
abbrev Decode := StateT (List Problem) Option

def note (p : Problem) : Decode Unit := modify (· ++ [p])

def fatal {α : Type} : Decode α := StateT.lift none

variable (d : Document)

/-- The node itself, or the one that an alias refers to. -/
def Document.follow : Node → Option Node
  | .alias _ _ n => d.target? n
  | n => some n

def Node.textOf : Node → Bytes
  | .scalar _ _ _ text => text
  | .alias _ name _ => name
  | _ => []

def Node.sameKind : Node → Node → Bool
  | .scalar .., .scalar .. => true
  | .sequence .., .sequence .. => true
  | .mapping .., .mapping .. => true
  | .alias .., .alias .. => true
  | _, _ => false

/-- Each pair of equal keys is a problem. -/
def duplicates : List (Node × Node) → List Problem
  | [] => []
  | (k, _) :: rest =>
    (rest.filter fun (k', _) => k.sameKind k' && k.textOf == k'.textOf).map
      (fun (k', _) => Problem.duplicateKey k'.line k'.textOf k.line) ++ duplicates rest

/-- Notes that a collection stands where `target` is wanted. -/
def mismatchCollection (target : Bytes) : Node → Decode Unit
  | .sequence line tag _ => note (.mismatch line (tag.getD Tag.seq) [] target)
  | .mapping line tag entries =>
    match duplicates entries with
    | [] => note (.mismatch line (tag.getD Tag.map) [] target)
    | ps => modify (· ++ ps)
  | _ => pure ()

/-- The value of a scalar, with its line and tag; none after a collection, which is noted. -/
def decodeScalar (target : Bytes) (n : Node) : Decode (Option (Nat × Bytes × Bytes × Value)) := do
  match d.follow n with
  | none => fatal
  | some (.scalar line tag plain text) =>
    match scalarValue tag plain text with
    | none => fatal
    | some (t, v) => return some (line, t, text, v)
  | some collection =>
    mismatchCollection target collection
    return none

def textTarget : Bytes := utf8 "string"

/-- The text of a scalar, whatever it looks like; none for nothing and for a collection. -/
def decodeText (n : Node) : Decode (Option Bytes) := do
  match ← decodeScalar d textTarget n with
  | none => return none
  | some (_, _, _, .null) => return none
  | some (_, _, _, .text s) => return some s
  | some (_, _, text, _) => return some text

/-- The whole part of a floating number that fits 64 bits. Numbers below the range, and the one just
above it, become the least number. -/
def FloatValue.toInt64? : FloatValue → Option Int64
  | .notANumber => none
  | .infinite negative => if negative then some Int64.minValue else none
  | .finite false x =>
    if x.floor < Numeral.halfCount then some (Int64.ofNat x.floor)
    else if x.floor == Numeral.halfCount then some Int64.minValue else none
  | .finite true x =>
    if x.floor ≤ Numeral.halfCount then some (Int64.ofInt (-(x.floor : Int))) else some Int64.minValue

/-- The whole number that a value gives. -/
def Value.toInt64? : Value → Option Int64
  | .int n => if n < Numeral.halfCount then some (Int64.ofInt n) else none
  | .float x => x.toInt64?
  | _ => none

/-- A whole number of 64 bits; none for nothing and for what does not fit, which is noted. -/
def decodeInt64 (target : Bytes) (n : Node) : Decode (Option Int64) := do
  match ← decodeScalar d target n with
  | none => return none
  | some (_, _, _, .null) => return none
  | some (line, tag, text, v) =>
    match v.toInt64? with
    | some i => return some i
    | none =>
      note (.mismatch line tag text target)
      return none

/-- A field of a record: its key, and how its value is taken over. -/
structure RecordField (S : Type) where
  key : Bytes
  decode : Node → S → Decode S

def isMergeKey : Node → Bool
  | .scalar _ tag plain text => text == mergeKey && (tag == some Tag.merge || (tag == none && plain))
  | _ => false

/-- What is known while the entries of a mapping are taken over. -/
structure Filling (S : Type) where
  value : S
  /-- The keys that merged mappings must leave alone, if this mapping is merged into another. -/
  merged : Option (List Bytes)
  done : List Bytes
  /-- The value of the merge key. -/
  merge : Option Node

variable {S : Type}

/-- Takes over one entry. Entries with unknown keys are ignored. -/
def fillEntry (target : Bytes) (fields : List (RecordField S)) (f : Filling S) (entry : Node × Node) : Decode (Filling S) := do
  let (k, v) := entry
  if isMergeKey k then return { f with merge := some v }
  else match ← decodeText d k with
    | none => return f
    | some name =>
      if (f.merged.getD []).contains name then return f
      else
        let f := { f with merged := f.merged.map (name :: ·) }
        match fields.find? (·.key == name) with
        | none => return f
        | some field =>
          if f.done.contains name then
            note (.fieldRepeated k.line name target)
            return f
          else
            let value ← field.decode v f.value
            return { f with value := value, done := name :: f.done }

/-- The keys of a mapping that are texts. -/
def textKeys (entries : List (Node × Node)) : List Bytes :=
  entries.filterMap fun (k, _) =>
    match d.follow k with
    | some (.scalar _ tag plain text) =>
      match scalarValue tag plain text with
      | some (_, .text s) => some s
      | _ => none
    | _ => none

def isMapping : Node → Bool
  | .mapping .. => true
  | _ => false

/-- The mappings that the value of a merge key names; none if it names anything else. -/
def mergeSources (n : Node) : Option (List Node) :=
  let ok (n : Node) : Bool := ((d.follow n).map isMapping).getD false
  match n with
  | .sequence _ _ items => if items.all ok then some items else none
  | n => if ok n then some [n] else none

/-- Takes over a mapping into a record. The result tells whether a value was found, and the keys
taken. Fuel runs out only in a mapping that is merged into itself. -/
def fillRecord (target : Bytes) (fields : List (RecordField S)) :
    (fuel : Nat) → (merged : Option (List Bytes)) → Node → S → Decode (Bool × Option (List Bytes) × S)
  | 0, _, _, _ => fatal
  | fuel + 1, merged, n, value => do
    match d.follow n with
    | none => fatal
    | some (.mapping _ _ entries) =>
      match duplicates entries with
      | p :: ps =>
        modify (· ++ p :: ps)
        return (false, merged, value)
      | [] =>
        let f ← entries.foldlM (fillEntry d target fields) ⟨value, merged, [], none⟩
        match f.merge with
        | none => return (true, f.merged, f.value)
        | some m =>
          match mergeSources d m with
          | none => fatal
          | some sources =>
            let start := f.merged.getD (textKeys d entries)
            let (keys, value) ← sources.foldlM (fun (keys, value) source => do
                let (_, keys', value) ← fillRecord target fields fuel (some keys) source value
                return (keys'.getD keys, value)) (start, f.value)
            return (true, f.merged.map fun _ => keys, value)
    | some n =>
      match ← decodeScalar d target n with
      | none => return (false, merged, value)
      | some (_, _, _, .null) => return (false, merged, value)
      | some (line, tag, text, _) =>
        note (.mismatch line tag text target)
        return (false, merged, value)

/-- A record, with the fields of the document laid over `value`; none if nothing is there. -/
def decodeRecord (target : Bytes) (fields : List (RecordField S)) (n : Node) (value : S) : Decode (Option S) := do
  let (found, _, value) ← fillRecord d target fields (d.size + 1) none n value
  return if found then some value else none

/-- A list of what `item` decodes; items that give nothing are left out. -/
def decodeList {α : Type} (target : Bytes) (item : Node → Decode (Option α)) (n : Node) : Decode (List α) := do
  match d.follow n with
  | none => fatal
  | some (.sequence _ _ items) =>
    let found ← items.mapM item
    return found.filterMap id
  | some n =>
    match ← decodeScalar d target n with
    | none => return []
    | some (_, _, _, .null) => return []
    | some (line, tag, text, _) =>
      note (.mismatch line tag text target)
      return []

/-- Decodes the first document of a file; `absent` is the value of an empty file. -/
def decodeFile {α : Type} (decode : Document → Node → Decode α) (absent : α) (s : Bytes) : Except DecodeError α :=
  match Document.read s with
  | none => .error .malformed
  | some none => .ok absent
  | some (some d) =>
    match (decode d d.root).run [] with
    | none => .error .malformed
    | some (v, []) => .ok v
    | some (_, ps) => .error (.problems ps)

end BoundedRecords.Yaml
