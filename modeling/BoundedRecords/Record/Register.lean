import BoundedRecords.Record.Person

/-! A register: one factory together with the list of all records it was asked for. The steps are
everything that can happen to records and to the allocator beneath them. -/
namespace BoundedRecords

structure Register (σ : Type) where
  state : σ
  people : List (Option Person)

namespace Register

inductive Step where
  | create (input : PersonInput)
  | createOnProcess (input : PersonInput)
  | createAll (inputs : List PersonInput)
  | release (index : Int)
  | releaseAll (indices : List Int)
  | allocate (size : Int64)
  | free (size : Int64)

variable {σ : Type}

/-- The record at a position; positions outside the list hold none. -/
def get? (r : Register σ) (index : Int) : Option Person :=
  match index with
  | .ofNat n => r.people[n]?.join
  | .negSucc _ => none

def releaseAt (A : Allocator σ) (index : Int) (r : Register σ) : Register σ :=
  match r.get? index with
  | none => r
  | some p =>
    let (p, s) := p.release A r.state
    ⟨s, r.people.set index.toNat (some p)⟩

/-- One step, with the failure or fault it met. A failed step adds no record, except that a single
creation leaves an empty place. -/
def run (A : Allocator σ) (r : Register σ) : Step → Register σ × Option (Failure ⊕ Fault)
  | .create i =>
    match Factory.create A i.name i.age r.state with
    | .done p s => (⟨s, r.people ++ [some p]⟩, none)
    | .refused e s => (⟨s, r.people ++ [none]⟩, some (.inl e))
    | .broken e s => (⟨s, r.people⟩, some (.inr e))
  | .createOnProcess i => (⟨r.state, r.people ++ [some (Factory.createOnProcess i.name i.age)]⟩, none)
  | .createAll inputs =>
    match Factory.createAll A inputs r.state with
    | .done people s => (⟨s, r.people ++ people.map some⟩, none)
    | .refused e s => (⟨s, r.people⟩, some (.inl e))
    | .broken e s => (⟨s, r.people⟩, some (.inr e))
  | .release index => (r.releaseAt A index, none)
  | .releaseAll indices => (indices.foldl (fun r index => r.releaseAt A index) r, none)
  | .allocate size =>
    match A.allocate size r.state with
    | .done _ s => (⟨s, r.people⟩, none)
    | .refused e s => (⟨s, r.people⟩, some (.inl e))
    | .broken e s => (⟨s, r.people⟩, some (.inr e))
  | .free size => (⟨A.free size r.state, r.people⟩, none)

end Register
end BoundedRecords
