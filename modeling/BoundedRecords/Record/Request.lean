import BoundedRecords.Record.Person

/-! Requested records. What a caller sends may lack the name, and is then no input for a record. -/
namespace BoundedRecords

/-- The fields of a requested record. A missing name is told from an empty one. -/
structure RecordRequest where
  name : Option Bytes
  age : Int64
deriving DecidableEq, Repr

namespace RecordRequest

def blank : RecordRequest := ⟨none, 0⟩

/-- The inputs for a list of requests, counted from `index`; an error is the number of the first
request without a name. -/
def inputsFrom : (index : Nat) → List RecordRequest → Except Nat (List PersonInput)
  | _, [] => .ok []
  | index, r :: rest =>
    match r.name with
    | none => .error index
    | some name =>
      match inputsFrom (index + 1) rest with
      | .error missing => .error missing
      | .ok inputs => .ok (⟨name, r.age⟩ :: inputs)

def inputs (requests : List RecordRequest) : Except Nat (List PersonInput) := inputsFrom 0 requests

end RecordRequest
end BoundedRecords
