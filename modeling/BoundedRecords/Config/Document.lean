import BoundedRecords.Config.Basic
import BoundedRecords.Yaml.Decode
import BoundedRecords.Yaml.Write

/-! The configuration as a YAML document. Reading lays the fields of the document over the defaults;
writing gives every field, in a fixed order. -/
namespace BoundedRecords.Config

open Yaml

def portTarget : Bytes := utf8 "int"
def budgetTarget : Bytes := utf8 "int64"
def securityTarget : Bytes := utf8 "config.Security"
def loggingTarget : Bytes := utf8 "config.Logging"
def allocatorTarget : Bytes := utf8 "config.Allocator"
def target : Bytes := utf8 "config.Config"

/-- A text field. Nothing in the document leaves it as it is. -/
def textField (d : Yaml.Document) (key : String) (set : Bytes → Config → Config) : RecordField Config :=
  ⟨utf8 key, fun n c => do
    match ← decodeText d n with
    | some s => return set s c
    | none => return c⟩

def numberField (d : Yaml.Document) (key : String) (target : Bytes) (set : Int64 → Config → Config) : RecordField Config :=
  ⟨utf8 key, fun n c => do
    match ← decodeInt64 d target n with
    | some i => return set i c
    | none => return c⟩

def sectionField (d : Yaml.Document) (key : String) (target : Bytes) (fields : List (RecordField Config)) : RecordField Config :=
  ⟨utf8 key, fun n c => do
    match ← decodeRecord d target fields n c with
    | some c => return c
    | none => return c⟩

def fields (d : Yaml.Document) : List (RecordField Config) := [
  numberField d "port" portTarget (fun n c => { c with port := n }),
  textField d "bind" (fun s c => { c with bind := s }),
  sectionField d "security" securityTarget [
    textField d "api_key" (fun s c => { c with apiKey := s })],
  sectionField d "logging" loggingTarget [
    textField d "level" (fun s c => { c with level := s }),
    textField d "format" (fun s c => { c with format := s })],
  sectionField d "allocator" allocatorTarget [
    numberField d "budget_bytes" budgetTarget (fun n c => { c with budget := n })]]

/-- The configuration that a node describes, laid over another one. -/
def ofNode (d : Yaml.Document) (n : Yaml.Node) (base : Config) : Decode Config := do
  match ← decodeRecord d target (fields d) n base with
  | some c => return c
  | none => return base

/-- The configuration that a file describes, laid over the defaults. -/
def parse (s : Bytes) : Except DecodeError Config :=
  decodeFile (fun d n => ofNode d n default) default s

/-- The text of a configuration. -/
def renderChars (c : Config) : List Char :=
  writeEntry 0 "port" (writeInt c.port) ++
  writeTextEntry 0 "bind" c.bind ++
  writeSection "security" ++
  writeTextEntry 1 "api_key" c.apiKey ++
  writeSection "logging" ++
  writeTextEntry 1 "level" c.level ++
  writeTextEntry 1 "format" c.format ++
  writeSection "allocator" ++
  writeEntry 1 "budget_bytes" (writeInt c.budget)

def render (c : Config) : Bytes := c.renderChars.flatMap Utf8.encode

end BoundedRecords.Config
