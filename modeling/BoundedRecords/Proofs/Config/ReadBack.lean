import BoundedRecords.Config.Document
import BoundedRecords.Proofs.Yaml.Decoding
import BoundedRecords.Proofs.Yaml.Lines
import BoundedRecords.Proofs.Yaml.Nodes

/-! A configuration read back. The text of a configuration that the program can run with, and whose free texts
stand on one line, is read as that configuration. -/
namespace BoundedRecords.Config

open Yaml

/-- How the values of a document are spelled. -/
structure Values where
  port : Spelling
  bind : Spelling
  apiKey : Spelling
  level : Spelling
  format : Spelling
  budget : Spelling

/-- The lines of a document. -/
def layout (v : Values) : List Line := [
  ⟨0, "port".toList, some v.port⟩,
  ⟨0, "bind".toList, some v.bind⟩,
  ⟨0, "security".toList, none⟩,
  ⟨4, "api_key".toList, some v.apiKey⟩,
  ⟨0, "logging".toList, none⟩,
  ⟨4, "level".toList, some v.level⟩,
  ⟨4, "format".toList, some v.format⟩,
  ⟨0, "allocator".toList, none⟩,
  ⟨4, "budget_bytes".toList, some v.budget⟩]

def scalarEntry (key : String) (line : Nat) (s : Spelling) : Entry :=
  ⟨key.toList, line, [⟨.scalar s.text s.plain, line⟩], .scalar (line + 1) none s.plain (ofChars s.text)⟩

def sectionEntry (key : String) (line last : Nat) (es : List Entry) : Entry :=
  ⟨key.toList, line, mappingTokens (line + 1) last es, .mapping (line + 2) none (es.map Entry.nodes)⟩

/-- The entries of a document. -/
def entries (v : Values) : List Entry := [
  scalarEntry "port" 0 v.port,
  scalarEntry "bind" 1 v.bind,
  sectionEntry "security" 2 4 [scalarEntry "api_key" 3 v.apiKey],
  sectionEntry "logging" 4 7 [scalarEntry "level" 5 v.level, scalarEntry "format" 6 v.format],
  sectionEntry "allocator" 7 9 [scalarEntry "budget_bytes" 8 v.budget]]

section

variable (d : Yaml.Document)

theorem decode_sectionField {es : List (Yaml.Node × Yaml.Node)} {fields : List (RecordField Config)} {c c' : Config}
    (fills : Fills fields [] es c c') (key : String) (target : Bytes) (line : Nat) (tag : Option Bytes) :
    (sectionField d key target fields).decode (.mapping line tag es) c = pure c' := by
  have follows : d.follow (.mapping line tag es) = some (.mapping line tag es) := rfl
  simp only [sectionField, decodeRecord_fills d target follows fills, pure_bind]

end

/-! The text. -/

theorem of_validate {c : Config} (valid : c.validate = .ok ()) :
    0 ≤ c.port.toInt ∧ c.level ∈ levels ∧ c.format ∈ formats ∧ 0 ≤ c.budget.toInt := by
  unfold validate at valid
  split at valid
  · cases valid
  split at valid
  · cases valid
  split at valid
  · cases valid
  split at valid
  · cases valid
  rename_i port level format budget
  simp only [Bool.or_eq_true, decide_eq_true_eq, not_or, Int64.not_lt, Int64.le_iff_toInt_le] at port
  simp only [Int64.not_lt, Int64.le_iff_toInt_le] at budget
  refine ⟨port.1, ?_, ?_, budget⟩
  · simpa using level
  · simpa using format

/-- The values of a configuration as they are written, with the plain forms told. -/
def written (c : Config) (bindPlain keyPlain levelPlain formatPlain : Bool) : Values where
  port := ⟨(writeInt c.port).text, (writeInt c.port).text, true⟩
  bind := ⟨(writeText 4 c.bind).text, Utf8.chars c.bind, bindPlain⟩
  apiKey := ⟨(writeText 8 c.apiKey).text, Utf8.chars c.apiKey, keyPlain⟩
  level := ⟨(writeText 8 c.level).text, Utf8.chars c.level, levelPlain⟩
  format := ⟨(writeText 8 c.format).text, Utf8.chars c.format, formatPlain⟩
  budget := ⟨(writeInt c.budget).text, (writeInt c.budget).text, true⟩

end BoundedRecords.Config
