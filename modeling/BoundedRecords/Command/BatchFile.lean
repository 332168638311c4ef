import BoundedRecords.Files.Tree
import BoundedRecords.Record.Request
import BoundedRecords.Yaml.Decode

/-! Batch files: a YAML list with one entry for each record that is asked for. -/
namespace BoundedRecords.Command

open Yaml

namespace BatchFile

/-- What an entry and a list of entries are called where something else was found. -/
def entryTarget : Bytes := utf8 "struct \x7b Name *string \"yaml:\\\"name\\\"\"; Age int \"yaml:\\\"age\\\"\" \x7d"
def listTarget : Bytes := utf8 "[]" ++ entryTarget

/-- A name that is null stays missing, and so does an age. -/
def fields (d : Document) : List (RecordField RecordRequest) := [
  ⟨utf8 "name", fun n r => do
    match ← decodeText d n with
    | some s => return { r with name := some s }
    | none => return r⟩,
  ⟨utf8 "age", fun n r => do
    match ← decodeInt64 d (utf8 "int") n with
    | some age => return { r with age := age }
    | none => return r⟩]

def entry (d : Document) (n : Node) : Decode (Option RecordRequest) :=
  decodeRecord d entryTarget (fields d) n .blank

/-- The entries of a list. An entry that is null is left out. -/
def entries (d : Document) (n : Node) : Decode (List RecordRequest) := decodeList d listTarget (entry d) n

def parse (s : Bytes) : Except DecodeError (List RecordRequest) := decodeFile entries [] s

end BatchFile

inductive BatchError where
  | unreadable (e : PathError)
  | unparsable (e : DecodeError)
  | empty
  | unnamed (index : Nat)
deriving DecidableEq, Repr

def BatchError.message : BatchError → Bytes
  | .unreadable e => utf8 "failed to read batch file: " ++ e.message
  | .unparsable e => utf8 "failed to parse batch file: " ++ e.message
  | .empty => utf8 "batch file has no entries"
  | .unnamed index => utf8 "entry " ++ Decimal.ofNat index ++ utf8 ": name is required"

/-- The inputs in a batch file. -/
def BatchFile.inputs (fs : Files) (path : Bytes) : Except BatchError (List PersonInput) :=
  match fs.read path with
  | .error e => .error (.unreadable e)
  | .ok content =>
    match parse content with
    | .error e => .error (.unparsable e)
    | .ok requests =>
      if requests.isEmpty then .error .empty
      else
        match RecordRequest.inputs requests with
        | .error index => .error (.unnamed index)
        | .ok inputs => .ok inputs

end BoundedRecords.Command
