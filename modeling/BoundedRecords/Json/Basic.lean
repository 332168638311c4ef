import BoundedRecords.Text.Numeral
import BoundedRecords.Text.Utf8

/-! JSON values. A number is kept as its text, a string as the bytes it stands for, and an object as
all its members in order, repeated keys included. -/
namespace BoundedRecords

inductive Json where
  | null
  | bool (b : Bool)
  | number (text : Bytes)
  | string (text : Bytes)
  | array (items : List Json)
  | object (members : List (Bytes × Json))

namespace Json

def ofInt (n : Int) : Json := .number (Decimal.ofInt n)
def ofInt64 (n : Int64) : Json := .ofInt n.toInt

/-- An object with the given members. -/
def record (members : List (String × Json)) : Json := .object (members.map fun (k, v) => (utf8 k, v))

/-- The member of a key; of several the last one counts. -/
def get? (key : String) : Json → Option Json
  | .object members => members.reverse.lookup (utf8 key)
  | _ => none

end Json
end BoundedRecords
