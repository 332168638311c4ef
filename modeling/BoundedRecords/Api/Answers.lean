import BoundedRecords.Api.Body
import BoundedRecords.Api.Message
import BoundedRecords.Json.Write
import BoundedRecords.Record.Maker

/-! The JSON answers of the interface. An answer holds either the data that was asked for or the text
of what went wrong. -/
namespace BoundedRecords.Api

/-- An answer with a JSON body. -/
def jsonAnswer (status : Nat) (members : List (String × Json)) : Answer :=
  ⟨status, [("Content-Type", utf8 "application/json")], Json.write Json.compact (.record members)⟩

def success (data : Json) : Answer := jsonAnswer 200 [("success", .bool true), ("data", data)]

/-- An empty text is left out. -/
def failure (status : Nat) (text : Bytes) : Answer :=
  jsonAnswer status (("success", .bool false) ::
    if text.isEmpty then [] else [("error", .string text)])

/-! The data of answers. -/

def healthView : Json := .record [("status", .string (utf8 "healthy"))]

def personView (p : Person) : Json :=
  .record [("name", .string p.name.text), ("age", .ofInt64 p.age), ("score", .ofInt p.score),
    ("greeting", .string p.greeting)]

def batchView (people : List Person) : Json :=
  .record [("count", .ofInt people.length), ("records", .array (people.map personView))]

/-- How records are laid out and how much storage they hold; a maker that reports no usage shows
zero for both. -/
def layoutView {σ : Type} (M : Maker σ) (s : σ) : Json :=
  let usage := (M.usage s).getD ⟨0, 0⟩
  .record [("capacity", .ofInt Name.capacity), ("max_name_len", .ofInt Name.maxLength),
    ("record_size", .ofInt64 Person.size), ("budget_bytes", .ofInt64 usage.limit),
    ("in_use_bytes", .ofInt64 usage.inUse), ("allocator", .string (M.kind s))]

/-- The answer to a request whose records could not be made. -/
def refusal (e : BoundedRecords.Failure) : Answer :=
  if e.stemsFrom .allocation then failure 503 e.message
  else failure 500 (utf8 "Failed to create record: " ++ e.message)

end BoundedRecords.Api
