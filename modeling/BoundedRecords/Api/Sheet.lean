import BoundedRecords.Text.Bytes

/-! Texts laid out by hand: objects and lists that stand on one line or over several, chosen part by
part. Texts are put in as they are. -/
namespace BoundedRecords.Api

inductive Sheet where
  /-- Written as it is. -/
  | text (s : Bytes)
  /-- Over several lines if `tall`, on one line otherwise. -/
  | object (tall : Bool) (members : List (String × Sheet))
  | list (tall : Bool) (items : List Sheet)

namespace Sheet

def quoted (s : Bytes) : Sheet := .text (0x22 :: s ++ [0x22])
def word (s : String) : Sheet := quoted (utf8 s)

/-- The start of a line under so many brackets. -/
def lineStart (depth : Nat) : Bytes := 0x0A :: List.replicate (4 * depth) 0x20

/-- The parts of a bracket that is closed at `depth`. -/
def enclose (tall : Bool) (depth : Nat) (left right : UInt8) (parts : List Bytes) : Bytes :=
  if parts.isEmpty then [left, right]
  else if tall then
    left :: lineStart (depth + 1) ++ Bytes.join (0x2C :: lineStart (depth + 1)) parts ++
      lineStart depth ++ [right]
  else left :: Bytes.join (utf8 ", ") parts ++ [right]

mutual

def write (depth : Nat) : Sheet → Bytes
  | .text s => s
  | .object tall members => enclose tall depth 0x7B 0x7D (writeMembers (depth + 1) members)
  | .list tall items => enclose tall depth 0x5B 0x5D (writeItems (depth + 1) items)

def writeMembers (depth : Nat) : List (String × Sheet) → List Bytes
  | [] => []
  | (key, s) :: members =>
    (0x22 :: utf8 key ++ utf8 "\": " ++ write depth s) :: writeMembers depth members

def writeItems (depth : Nat) : List Sheet → List Bytes
  | [] => []
  | s :: items => write depth s :: writeItems depth items

end

end Sheet
end BoundedRecords.Api
