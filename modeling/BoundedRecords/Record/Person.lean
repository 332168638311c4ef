import BoundedRecords.Record.Name
import BoundedRecords.Storage.Allocator

/-! Person records and the factory that makes them. A record occupies a fixed number of bytes, for
which its owner is asked first, and which go back to the same owner at most once. -/
namespace BoundedRecords

/-- Whose storage a record occupies: that of the factory's allocator or the process's own heap. -/
inductive Owner where
  | factory
  | process
deriving DecidableEq, Repr

/-- A record; `owner` is none once the record is released. -/
structure Person where
  name : Name
  age : Int64
  score : Nat
  owner : Option Owner
deriving DecidableEq, Repr

namespace Person

/-- The bytes accounted for one record. -/
def size : Int64 := 136

def released (p : Person) : Bool := p.owner.isNone

def greeting (p : Person) : Bytes := utf8 "Hello, " ++ p.name.text ++ utf8 "!"

def summary (p : Person) : Bytes :=
  utf8 "Name: " ++ p.name.text ++ utf8 ", Age: " ++ Decimal.ofInt64 p.age

/-- Gives the storage back to the owner; a record released before is left alone. -/
def release {σ : Type} (A : Allocator σ) (p : Person) (s : σ) : Person × σ :=
  match p.owner with
  | none => (p, s)
  | some .process => ({ p with owner := none }, s)
  | some .factory => ({ p with owner := none }, A.free size s)

end Person

/-- What the maker of a record supplies. -/
structure PersonInput where
  name : Bytes
  age : Int64
deriving DecidableEq, Repr

namespace Factory

/-- Makes a record. The name is cut silently; the only failure is a shortage of storage. -/
def create {σ : Type} (A : Allocator σ) (name : Bytes) (age : Int64) (s : σ) : Outcome σ Person :=
  match A.allocate Person.size s with
  | .done _ s => .done ⟨Name.new name, age, 0, some .factory⟩ s
  | .refused e s => .refused (.shortage Person.size (some e)) s
  | .broken e s => .broken e s

/-- A record on the process's own heap, which never refuses one. -/
def createOnProcess (name : Bytes) (age : Int64) : Person := ⟨Name.new name, age, 0, some .process⟩

/-- Releases the records in order. -/
def releaseAll {σ : Type} (A : Allocator σ) : List Person → σ → σ
  | [], s => s
  | p :: people, s => releaseAll A people (p.release A s).2

/-- Goes on making records after `made`, which is kept latest first. -/
def createOnto {σ : Type} (A : Allocator σ) (made : List Person) : List PersonInput → σ → Outcome σ (List Person)
  | [], s => .done made.reverse s
  | i :: inputs, s =>
    match create A i.name i.age s with
    | .done p s => createOnto A (p :: made) inputs s
    | .refused e s => .refused e (releaseAll A made.reverse s)
    | .broken e s => .broken e s

/-- Makes one record for each input, or none: after a refusal the records made so far are released. -/
def createAll {σ : Type} (A : Allocator σ) (inputs : List PersonInput) (s : σ) : Outcome σ (List Person) :=
  createOnto A [] inputs s

end Factory
end BoundedRecords
