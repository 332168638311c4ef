import BoundedRecords.Yaml.Source

/-! The tokens of a YAML text. -/
namespace BoundedRecords.Yaml

inductive TokenKind where
  | streamStart
  | streamEnd
  | version (major minor : Nat)
  | tagHandle (handle start : List Char)
  | documentStart
  | documentEnd
  | blockSequenceStart
  | blockMappingStart
  | blockEnd
  | flowSequenceStart
  | flowSequenceEnd
  | flowMappingStart
  | flowMappingEnd
  | blockEntry
  | flowEntry
  | key
  | value
  | alias (name : List Char)
  | anchor (name : List Char)
  | tag (handle suffix : List Char)
  | scalar (text : List Char) (plain : Bool)
deriving DecidableEq, Repr

structure Token where
  kind : TokenKind
  /-- The line it starts on, counted from zero. -/
  line : Nat
deriving DecidableEq, Repr

end BoundedRecords.Yaml
