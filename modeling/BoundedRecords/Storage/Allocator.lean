import BoundedRecords.Storage.Failure

/-! Allocators. An allocator hands out no memory: it decides whether a request of some size may
proceed and keeps count in a state of its own. -/
namespace BoundedRecords

/-- The result of a computation that may be refused or break off; the state survives in any case. -/
inductive Outcome (σ α : Type) where
  | done (value : α) (state : σ)
  | refused (why : Failure) (state : σ)
  | broken (why : Fault) (state : σ)

namespace Outcome

def state {σ α : Type} : Outcome σ α → σ
  | .done _ s => s
  | .refused _ s => s
  | .broken _ s => s

def bind {σ α β : Type} (x : Outcome σ α) (f : α → σ → Outcome σ β) : Outcome σ β :=
  match x with
  | .done a s => f a s
  | .refused e s => .refused e s
  | .broken e s => .broken e s

end Outcome

/-- The bytes in use and the limit, as an allocator with a budget reports them. -/
structure Usage where
  inUse : Int64
  limit : Int64
deriving DecidableEq, Repr

/-- What an allocator does with its state. Only `allocate` can break off; `free` and `usage` always give a
result, so that an allocator that breaks off in one of these is left out. -/
structure Allocator (σ : Type) where
  kind : σ → Bytes
  allocate : Int64 → σ → Outcome σ Unit
  free : Int64 → σ → σ
  usage : σ → Option Usage

/-- A call on an allocator: a request with whether it was granted, or a return. -/
inductive Call where
  | allocate (size : Int64) (granted : Bool)
  | free (size : Int64)
deriving DecidableEq, Repr

namespace Allocator

/-- The same allocator with a record of the calls made on it, in order. -/
def traced {σ : Type} (A : Allocator σ) : Allocator (σ × List Call) where
  kind := fun (s, _) => A.kind s
  allocate size := fun (s, calls) =>
    match A.allocate size s with
    | .done _ s => .done () (s, calls ++ [.allocate size true])
    | .refused e s => .refused e (s, calls ++ [.allocate size false])
    | .broken e s => .broken e (s, calls ++ [.allocate size false])
  free size := fun (s, calls) => (A.free size s, calls ++ [.free size])
  usage := fun (s, _) => A.usage s

def invalidSize (size : Int64) : Failure :=
  .within [] (.reason .invalidSize) (utf8 ": " ++ Decimal.ofInt64 size)

/-- Grants every request of a positive size. -/
def heap : Allocator Unit where
  kind _ := utf8 "heap"
  allocate size _ := if size ≤ 0 then .refused (invalidSize size) () else .done () ()
  free _ _ := ()
  usage _ := none

/-- Refuses every request. -/
def failing : Allocator Unit where
  kind _ := utf8 "failing"
  allocate size _ :=
    .refused (.within [] (.reason .exhausted)
      (utf8 ": request of " ++ Decimal.ofInt64 size ++ utf8 " bytes refused")) ()
  free _ _ := ()
  usage _ := none

/-- Breaks off at every request. -/
def broken : Allocator Unit where
  kind _ := utf8 "custom"
  allocate _ _ := .broken (.foreign (utf8 "allocator panic")) ()
  free _ _ := ()
  usage _ := none

/-- The kind shown where no allocator is in place. -/
def noneKind : Bytes := utf8 "none"

def kindOf {σ : Type} (A : Option (Allocator σ)) (s : σ) : Bytes :=
  match A with
  | some A => A.kind s
  | none => noneKind

end Allocator
end BoundedRecords
