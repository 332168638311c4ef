import BoundedRecords.Record.Person

/-! The record operations that a host of records needs, so that a host does not depend on how records
are made. -/
namespace BoundedRecords

structure Maker (σ : Type) where
  create : Bytes → Int64 → σ → Outcome σ Person
  createAll : List PersonInput → σ → Outcome σ (List Person)
  releaseAll : List Person → σ → σ
  allocator : Option (Allocator σ)

namespace Maker

/-- Makes records with storage from an allocator. -/
def ofAllocator {σ : Type} (A : Allocator σ) : Maker σ where
  create := Factory.create A
  createAll := Factory.createAll A
  releaseAll := Factory.releaseAll A
  allocator := some A

/-- Makes no record, for reasons of its own. -/
def broken {σ : Type} (A : Option (Allocator σ)) : Maker σ where
  create _ _ s := .refused (.plain (utf8 "factory broken")) s
  createAll _ s := .refused (.plain (utf8 "factory broken <all>")) s
  releaseAll _ s := s
  allocator := A

def usage {σ : Type} (M : Maker σ) (s : σ) : Option Usage := M.allocator.bind fun A => A.usage s

def kind {σ : Type} (M : Maker σ) (s : σ) : Bytes := Allocator.kindOf M.allocator s

end Maker
end BoundedRecords
