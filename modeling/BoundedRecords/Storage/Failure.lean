import BoundedRecords.Text.Numeral

/-! Why storage was not given. A failure is a chain: a reason may stand inside surrounding text or
be the cause of a shortage, and what it stems from can still be told at the outside. -/
namespace BoundedRecords

/-- The reasons that callers tell apart. -/
inductive Reason where
  | exhausted
  | invalidSize
  | allocation
deriving DecidableEq, Repr

def Reason.message : Reason → Bytes
  | .exhausted => utf8 "allocator exhausted"
  | .invalidSize => utf8 "invalid allocation size"
  | .allocation => utf8 "record allocation failed"

inductive Failure where
  | reason (r : Reason)
  /-- A failure with no reason that callers know. -/
  | plain (text : Bytes)
  /-- A failure inside surrounding text. -/
  | within (before : Bytes) (inner : Failure) (after : Bytes)
  /-- A shortage: `size` bytes for a record were not to be had, because of `cause`. -/
  | shortage (size : Int64) (cause : Option Failure)
  /-- A shortage of which nothing was kept. -/
  | blank
deriving Repr

namespace Failure

def message : Failure → Bytes
  | .reason r => r.message
  | .plain text => text
  | .within before inner after => before ++ inner.message ++ after
  | .shortage size none => Reason.allocation.message ++ utf8 ": " ++ Decimal.ofInt64 size ++ utf8 " bytes"
  | .shortage size (some cause) =>
    Reason.allocation.message ++ utf8 ": " ++ Decimal.ofInt64 size ++ utf8 " bytes: " ++ cause.message
  | .blank => []

/-- Whether the failure stems from `r`. Every shortage is an allocation failure. -/
def stemsFrom (r : Reason) : Failure → Bool
  | .reason r' => r' == r
  | .plain _ => false
  | .within _ inner _ => inner.stemsFrom r
  | .shortage _ none => r == .allocation
  | .shortage _ (some cause) => r == .allocation || cause.stemsFrom r
  | .blank => r == .allocation

/-- The outermost shortage of the chain: its size and its cause. -/
def shortage? : Failure → Option (Int64 × Option Failure)
  | .within _ inner _ => inner.shortage?
  | .shortage size cause => some (size, cause)
  | _ => none

/-- The failure behind a line of context. -/
def withContext (context : Bytes) (e : Failure) : Failure := .within (context ++ utf8 ": ") e []

def cause? : Failure → Option Failure
  | .shortage _ cause => cause
  | _ => none

end Failure

/-- What ends a computation outright. -/
inductive Fault where
  /-- Raised by an allocator or a handler from outside, in its own words. -/
  | foreign (text : Bytes)
  | negativeLength
  | decreasingCounter
deriving DecidableEq, Repr

def Fault.message : Fault → Bytes
  | .foreign text => text
  | .negativeLength => utf8 "runtime error: makeslice: len out of range"
  | .decreasingCounter => utf8 "counter cannot decrease in value"

end BoundedRecords
