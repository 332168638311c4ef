import BoundedRecords.Json.Read
import BoundedRecords.Record.Request

/-! Request bodies. At most a fixed number of bytes is read; the first JSON value of the body is taken,
and what follows it is looked at only as far as its first byte. -/
namespace BoundedRecords.Api

def maxBody : Nat := 1048576

inductive BodyError where
  | empty
  | incomplete
  | tooLarge
  | malformed
  | mistyped
  | trailing
deriving DecidableEq, Repr

def BodyError.message : BodyError → Bytes
  | .empty => utf8 "EOF"
  | .incomplete => utf8 "unexpected EOF"
  | .tooLarge => utf8 "http: request body too large"
  | .malformed => utf8 "SYNTAX"
  | .mistyped => utf8 "TYPE"
  | .trailing => utf8 "unexpected data after JSON body"

/-- Whether the bytes after the value are accepted. A closing bracket hides all that follows it. A look ahead
that runs into the limit fails, and this counts as more data: a body whose blanks go beyond the limit is not
accepted, though a look ahead that fails is usually taken to have found nothing. -/
def acceptsRest (more : Bool) (rest : Bytes) : Bool :=
  match rest.dropWhile Json.isSpace with
  | [] => !more
  | b :: _ => b == 0x5D || b == 0x7D

/-- The value of a body, and the bytes that were read after it. -/
def firstValue (limit : Nat) (body : Bytes) : Except BodyError (Json × Bytes) :=
  match Json.run Json.start (body.take limit) with
  | .wrong => .error .malformed
  | .value v rest => .ok (v, rest)
  | .short r =>
    if limit < body.length then .error .tooLarge
    else match Json.atEnd r with
      | some v => .ok (v, [])
      | none => .error (if r.isBlank then .empty else .incomplete)

/-- Decodes the value of a body. A value of the wrong kind counts before what follows it. -/
def readBody {α : Type} (decode : Json → Option α) (body : Bytes) : Except BodyError α := do
  let (v, rest) ← firstValue maxBody body
  match decode v with
  | none => throw .mistyped
  | some a => if acceptsRest (maxBody < body.length) rest then return a else throw .trailing

/-! Record requests. -/

/-- Keys are compared without regard to case. -/
def isKey (key : Bytes) (name : String) : Bool := key.map Bytes.toLower == utf8 name

/-- A number without fraction and exponent that fits 64 bits. -/
def wholeNumber? (text : Bytes) : Option Int64 := (Numeral.readSigned false text).toOption

/-- Takes over one member; none if its value is of the wrong kind. -/
def takeMember (r : RecordRequest) (member : Bytes × Json) : Option RecordRequest :=
  let (key, v) := member
  if isKey key "name" then
    match v with
    | .null => some { r with name := none }
    | .string text => some { r with name := some text }
    | _ => none
  else if isKey key "age" then
    match v with
    | .null => some r
    | .number text => (wholeNumber? text).map fun n => { r with age := n }
    | _ => none
  else some r

def recordOfJson : Json → Option RecordRequest
  | .null => some .blank
  | .object members => members.foldlM takeMember .blank
  | _ => none

def recordsOfJson : Json → Option (List RecordRequest)
  | .null => some []
  | .array items => items.mapM recordOfJson
  | _ => none

/-- Why a request for records is refused before any storage is asked for. -/
inductive RequestError where
  | body (e : BodyError)
  | unnamed
  | emptyBatch
  | largeBatch (size : Nat)
  | unnamedEntry (index : Nat)
deriving DecidableEq, Repr

def maxBatch : Nat := 1000

def RequestError.message : RequestError → Bytes
  | .body e => utf8 "Invalid JSON request: " ++ e.message
  | .unnamed => utf8 "name is required"
  | .emptyBatch => utf8 "batch must contain at least one record"
  | .largeBatch size =>
    utf8 "batch of " ++ Decimal.ofNat size ++ utf8 " exceeds limit of " ++ Decimal.ofNat maxBatch
  | .unnamedEntry index => utf8 "records[" ++ Decimal.ofNat index ++ utf8 "].name is required"

/-- The input in the body of a request for one record. -/
def readOne (body : Bytes) : Except RequestError PersonInput :=
  match readBody recordOfJson body with
  | .error e => .error (.body e)
  | .ok ⟨none, _⟩ => .error .unnamed
  | .ok ⟨some name, age⟩ => .ok ⟨name, age⟩

/-- The inputs in the body of a request for several records. -/
def readMany (body : Bytes) : Except RequestError (List PersonInput) :=
  match readBody recordsOfJson body with
  | .error e => .error (.body e)
  | .ok requests =>
    if requests.isEmpty then .error .emptyBatch
    else if maxBatch < requests.length then .error (.largeBatch requests.length)
    else
      match RecordRequest.inputs requests with
      | .error index => .error (.unnamedEntry index)
      | .ok inputs => .ok inputs

end BoundedRecords.Api
