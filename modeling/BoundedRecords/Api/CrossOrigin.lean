import BoundedRecords.Api.Message
import BoundedRecords.Text.Case

/-! Requests from pages of other origins. Every origin and header is allowed, and three methods. -/
namespace BoundedRecords.Api.CrossOrigin

def allowedMethods : List String := ["GET", "POST", "OPTIONS"]

def isAllowed (method : Bytes) : Bool := allowedMethods.any fun m => Case.upper method == utf8 m

/-- A request that asks in advance whether another one is allowed. -/
def isPreflight (r : Request) : Bool :=
  r.method == utf8 "OPTIONS" && !(r.header "Access-Control-Request-Method").isEmpty

/-- Reads on in a list of header names: `name` is the current one, latest byte first, and `capital`
tells whether a letter is to be a capital. -/
def headerNames : (name : Bytes) → (capital : Bool) → Bytes → List Bytes
  | name, _, [] => if name.isEmpty then [] else [name.reverse]
  | name, capital, b :: rest =>
    if b == 0x20 || b == 0x2C then
      if name.isEmpty then headerNames [] capital rest else name.reverse :: headerNames [] true rest
    else if Bytes.isLetter b then
      headerNames ((if capital then Bytes.toUpper b else Bytes.toLower b) :: name) false rest
    else if b == 0x2D || b == 0x5F then headerNames (b :: name) true rest
    else if b == 0x2E || Bytes.isDigit b then headerNames (b :: name) false rest
    else headerNames name false rest

def vary (name : String) : String × Bytes := ("Vary", utf8 name)

/-- The headers of the answer to a preflight. -/
def preflightHeaders (r : Request) : List (String × Bytes) :=
  let method := r.header "Access-Control-Request-Method"
  let names := headerNames [] true (r.header "Access-Control-Request-Headers")
  [vary "Origin", vary "Access-Control-Request-Method", vary "Access-Control-Request-Headers"] ++
    if (r.header "Origin").isEmpty || !isAllowed method then []
    else
      [("Access-Control-Allow-Origin", utf8 "*"), ("Access-Control-Allow-Methods", Case.upper method)] ++
        (if names.isEmpty then [] else [("Access-Control-Allow-Headers", Bytes.join (utf8 ", ") names)]) ++
        [("Access-Control-Max-Age", utf8 "300")]

/-- The headers that any other request gets. -/
def requestHeaders (r : Request) : List (String × Bytes) :=
  vary "Origin" ::
    if (r.header "Origin").isEmpty || !isAllowed r.method then []
    else
      [("Access-Control-Allow-Origin", utf8 "*"), ("Access-Control-Expose-Headers", utf8 "X-Request-Id")]

end BoundedRecords.Api.CrossOrigin
