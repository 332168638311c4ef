import BoundedRecords.Yaml.Node

/-! The tokens of nodes. The tokens of a scalar, and of a mapping in a block whose values have theirs, are read as
that node whatever follows them. -/
namespace BoundedRecords.Yaml

/-- A key of a mapping, its line, and the value with its tokens. -/
structure Entry where
  key : List Char
  line : Nat
  value : List Token
  node : Node

namespace Entry

def tokens (e : Entry) : List Token := ⟨.key, e.line⟩ :: ⟨.scalar e.key true, e.line⟩ :: ⟨.value, e.line⟩ :: e.value

def nodes (e : Entry) : Node × Node := (.scalar (e.line + 1) none true (ofChars e.key), e.node)

end Entry

def mappingTokens (line last : Nat) (es : List Entry) : List Token :=
  ⟨.blockMappingStart, line⟩ :: (es.flatMap Entry.tokens ++ [⟨.blockEnd, last⟩])

end BoundedRecords.Yaml
