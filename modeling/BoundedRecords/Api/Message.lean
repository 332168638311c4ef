import BoundedRecords.Text.Numeral
import BoundedRecords.Text.Utf8

/-! Requests and answers. Header names are compared in their canonical form, where each word of a name
begins with a capital. -/
namespace BoundedRecords.Api

structure Request where
  method : Bytes
  target : Bytes
  headers : List (Bytes × Bytes)
  body : Bytes
deriving DecidableEq, Repr

structure Answer where
  status : Nat
  headers : List (String × Bytes)
  body : Bytes
deriving DecidableEq, Repr

/-! Headers. -/

def isTokenByte (b : UInt8) : Bool :=
  Bytes.isLetter b || Bytes.isDigit b || (utf8 "!#$%&'*+-.^_|~").contains b || b == 0x60

def canonicalFrom : (capital : Bool) → Bytes → Bytes
  | _, [] => []
  | capital, b :: rest =>
    (if capital then Bytes.toUpper b else Bytes.toLower b) :: canonicalFrom (b == 0x2D) rest

/-- The canonical form of a header name; a text that is no name stays as it is. -/
def canonicalName (name : Bytes) : Bytes := if name.all isTokenByte then canonicalFrom true name else name

/-- The first value of a header, empty if there is none. -/
def Request.header (r : Request) (name : String) : Bytes :=
  match r.headers.find? fun (n, _) => canonicalName n == utf8 name with
  | some (_, v) => v
  | none => []

/-! Paths. -/

/-- Resolves percent escapes. -/
def unescape : Bytes → Bytes
  | [] => []
  | [a] => [a]
  | [a, b] => [a, b]
  | a :: b :: c :: rest =>
    match Hex.value? b, Hex.value? c with
    | some x, some y =>
      if a == 0x25 then (x * 16 + y).toUInt8 :: unescape rest else a :: unescape (b :: c :: rest)
    | _, _ => a :: unescape (b :: c :: rest)

def isPathByte (b : UInt8) : Bool :=
  Bytes.isLetter b || Bytes.isDigit b || (utf8 "-_.~$&+,/:;=@").contains b

def escapeByte (b : UInt8) : Bytes :=
  if isPathByte b then [b] else 0x25 :: (Hex.ofByte b).map Bytes.toUpper

/-- The usual escaped form of a path. -/
def escapePath (p : Bytes) : Bytes := p.flatMap escapeByte

/-- The path of a target as it was written, without scheme, host and query. -/
def writtenPath (target : Bytes) : Bytes :=
  let (location, _) := Bytes.cut 0x3F target
  match Bytes.dropStart? (utf8 "http://") location, Bytes.dropStart? (utf8 "https://") location with
  | some rest, _ => rest.dropWhile (· != 0x2F)
  | none, some rest => rest.dropWhile (· != 0x2F)
  | none, none => location

/-- The path that a target means. -/
def Request.path (r : Request) : Bytes := unescape (writtenPath r.target)

/-- The path that routes are compared with: as written if it was escaped in an unusual way. -/
def Request.routePath (r : Request) : Bytes :=
  let written := writtenPath r.target
  let p := if escapePath r.path == written then r.path else written
  if p.isEmpty then utf8 "/" else p

/-! Answers. -/

def plainText (status : Nat) (text : String) : Answer :=
  ⟨status, [("Content-Type", utf8 "text/plain; charset=utf-8"), ("X-Content-Type-Options", utf8 "nosniff")],
    utf8 text ++ [0x0A]⟩

def notFound : Answer := plainText 404 "404 page not found"

/-- A known path with another method; the methods it takes are told. -/
def methodNotAllowed (methods : List String) : Answer := ⟨405, methods.map fun m => ("Allow", utf8 m), []⟩

end BoundedRecords.Api
