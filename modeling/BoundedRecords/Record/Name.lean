import BoundedRecords.Text.Utf8

/-! Names in a buffer of fixed size. The buffer holds the name, then zero bytes up to its end, and at
least one of them: a name too long is cut, and never in the middle of a character. -/
namespace BoundedRecords

structure Name where
  buffer : Bytes
deriving DecidableEq, Repr

namespace Name

/-- The size of the buffer, the final zero byte included. -/
def capacity : Nat := 100

def maxLength : Nat := capacity - 1

def startsCharacter : Bytes → Bool
  | [] => false
  | b :: _ => !Utf8.isContinuation b

/-- Without the character that the end of `s` leaves incomplete, if there is one. Only the last three
bytes can hold the start of such a character. -/
def dropIncomplete (s : Bytes) : Bytes :=
  let ends := [1, 2, 3].map fun k => s.drop (s.length - k)
  match ends.find? startsCharacter with
  | some u => if Utf8.isIncomplete u then s.take (s.length - u.length) else s
  | none => s

/-- The part of a text that is kept: up to the first zero byte, and at most `maxLength` bytes. -/
def truncate (s : Bytes) : Bytes :=
  let text := s.takeWhile (· != 0)
  if text.length ≤ maxLength then text else dropIncomplete (text.take maxLength)

def new (s : Bytes) : Name :=
  ⟨truncate s ++ List.replicate (capacity - (truncate s).length) 0⟩

/-- The bytes before the first zero byte. -/
def text (n : Name) : Bytes := n.buffer.takeWhile (· != 0)

def length (n : Name) : Nat := n.buffer.findIdx (· == 0)

def isEmpty (n : Name) : Bool := n.buffer.head? == some 0

end Name
end BoundedRecords
