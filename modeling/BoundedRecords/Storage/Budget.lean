import BoundedRecords.Storage.Allocator

/-! A budget: storage is handed out until a fixed number of bytes is in use. Counts are words of 64
bits and wrap around. -/
namespace BoundedRecords

structure Budget where
  limit : Int64
  used : Int64
deriving DecidableEq, Repr

namespace Budget

/-- An unused budget; a negative limit counts as zero. -/
def new (limit : Int64) : Budget := ⟨if limit < 0 then 0 else limit, 0⟩

def available (b : Budget) : Int64 := b.limit - b.used

def exhausted (b : Budget) (size : Int64) : Failure :=
  .within [] (.reason .exhausted)
    (utf8 ": " ++ Decimal.ofInt64 size ++ utf8 " bytes requested, " ++
      Decimal.ofInt64 b.available ++ utf8 " of " ++ Decimal.ofInt64 b.limit ++ utf8 " available")

def allocate (size : Int64) (b : Budget) : Outcome Budget Unit :=
  if size ≤ 0 then .refused (Allocator.invalidSize size) b
  else if b.used + size > b.limit then .refused (b.exhausted size) b
  else .done () { b with used := b.used + size }

/-- Returning more than is in use leaves nothing in use. -/
def free (size : Int64) (b : Budget) : Budget :=
  if size ≤ 0 then b
  else if b.used - size < 0 then { b with used := 0 }
  else { b with used := b.used - size }

def allocator : Allocator Budget where
  kind _ := utf8 "budget"
  allocate := allocate
  free := free
  usage b := some ⟨b.used, b.limit⟩

/-- Storage with a budget if one is set, and the heap otherwise. -/
def optional : Allocator (Option Budget) where
  kind
    | none => Allocator.heap.kind ()
    | some b => allocator.kind b
  allocate size
    | none =>
      match Allocator.heap.allocate size () with
      | .done _ _ => .done () none
      | .refused e _ => .refused e none
      | .broken e _ => .broken e none
    | some b =>
      match allocate size b with
      | .done _ b => .done () (some b)
      | .refused e b => .refused e (some b)
      | .broken e b => .broken e (some b)
  free size := Option.map (free size)
  usage := fun b => b.bind allocator.usage

/-- The storage for a configured number of bytes: zero and below set no budget. -/
def ofBytes (limit : Int64) : Option Budget := if 0 < limit then some (new limit) else none

end Budget

/-- A number of grants, whatever their size. Returns are counted and refill nothing. -/
structure Quota where
  grants : Int64
  live : Int64
deriving DecidableEq, Repr

namespace Quota

def allocate (_ : Int64) (q : Quota) : Outcome Quota Unit :=
  if q.grants ≤ 0 then .refused (.plain (utf8 "quota used up")) q
  else .done () ⟨q.grants - 1, q.live + 1⟩

def free (_ : Int64) (q : Quota) : Quota := { q with live := q.live - 1 }

def allocator : Allocator Quota where
  kind _ := utf8 "custom"
  allocate := allocate
  free := free
  usage _ := none

/-- A quota that reports the live grants against a limit of its own. -/
def reporting : Allocator Quota where
  kind _ := utf8 "custom"
  allocate := allocate
  free := free
  usage q := some ⟨q.live, -7⟩

end Quota
end BoundedRecords
