import BoundedRecords.Api.Message
import BoundedRecords.Api.Sheet
import BoundedRecords.Json.Write

/-! The description of the interface for other programs, and the page that shows it. -/
namespace BoundedRecords.Api

/-- What a host says about itself. -/
structure ApiInfo where
  version : Bytes
  host : Bytes
  title : Bytes
  description : Bytes
  basePath : Bytes
  schemes : List Bytes
  /-- The name under which the description is asked for. -/
  instanceName : Bytes
deriving DecidableEq, Repr

namespace ApiInfo

def default : ApiInfo where
  version := utf8 "1.0.0"
  host := utf8 "localhost:8080"
  title := utf8 "recfactory REST API"
  description := utf8 "Builds fixed-capacity Person records on demand."
  basePath := utf8 "/api/v1"
  schemes := []
  instanceName := utf8 "swagger"

/-! Parts of the description. -/

def tall (members : List (String × Sheet)) : Sheet := .object true members
def flat (members : List (String × Sheet)) : Sheet := .object false members
def words (items : List String) : Sheet := .list false (items.map Sheet.word)

def reference (definition : String) : Sheet := flat [("$ref", .word ("#/definitions/" ++ definition))]

def response (text definition : String) : Sheet :=
  flat [("description", .word text), ("schema", reference definition)]

def typed (kind : String) : Sheet := flat [("type", .word kind)]

def listOf (definition : String) : Sheet :=
  flat [("type", .word "array"), ("items", reference definition)]

def definition (properties : List (String × Sheet)) : Sheet :=
  tall [("type", .word "object"), ("properties", tall properties)]

/-- The members that an operation begins with. -/
def heading (text : String) : List (String × Sheet) := [
  ("security", .list false [flat [("ApiKeyAuth", .list false [])]]),
  ("description", .word text)]

def closing (tag summary : String) : List (String × Sheet) := [
  ("produces", words ["application/json"]),
  ("tags", words [tag]),
  ("summary", .word summary)]

def reading (text tag summary answer : String) : Sheet :=
  tall [("get", tall (heading text ++ closing tag summary ++
    [("responses", tall [("200", response "OK" answer)])]))]

def creating (text summary answer : String) (schema : Sheet) : Sheet :=
  tall [("post", tall (heading text ++ [("consumes", words ["application/json"])] ++
    closing "records" summary ++ [
      ("parameters", .list true [tall [
        ("description", .word "Record fields"),
        ("name", .word "request"),
        ("in", .word "body"),
        ("required", .text (utf8 "true")),
        ("schema", schema)]]),
      ("responses", tall [
        ("200", response "OK" answer),
        ("400", response "Bad Request" "api.APIResponse"),
        ("503", response "Service Unavailable" "api.APIResponse")])]))]

def paths : Sheet := tall [
  ("/health", reading "Get the health status of the API" "health" "Health check" "api.APIResponse"),
  ("/layout", reading "Report the record layout and allocator usage" "records" "Record layout"
    "api.LayoutResponse"),
  ("/records", creating "Build a Person record. Names longer than 99 bytes are truncated silently."
    "Create a record" "api.RecordResponse" (reference "api.CreateRecordRequest")),
  ("/records/batch", creating "Build 1 to 1000 records. Either every record is created or none is."
    "Create records" "api.BatchResponse" (listOf "api.CreateRecordRequest"))]

def definitions : Sheet := tall [
  ("api.APIResponse", definition
    [("data", flat []), ("error", typed "string"), ("success", typed "boolean")]),
  ("api.BatchResponse", definition
    [("count", typed "integer"), ("records", listOf "api.RecordResponse")]),
  ("api.CreateRecordRequest", definition [("age", typed "integer"), ("name", typed "string")]),
  ("api.LayoutResponse", definition
    [("allocator", typed "string"), ("budget_bytes", typed "integer"), ("capacity", typed "integer"),
      ("in_use_bytes", typed "integer"), ("max_name_len", typed "integer"),
      ("record_size", typed "integer")]),
  ("api.RecordResponse", definition
    [("age", typed "integer"), ("greeting", typed "string"), ("name", typed "string"),
      ("score", typed "number")])]

def keys : Sheet := tall [
  ("ApiKeyAuth", tall [("type", .word "apiKey"), ("name", .word "X-API-Key"), ("in", .word "header")])]

/-! Texts inside the description. Only the free text is escaped: line feeds, tabs and quotes, and a
quote behind two backslashes gets a third one. -/

def escapeControl (b : UInt8) : Bytes :=
  if b == 0x0A then utf8 "\\n" else if b == 0x09 then utf8 "\\t" else if b == 0x22 then utf8 "\\\"" else [b]

/-- Puts one more backslash before each quote that stands behind two. -/
def guardQuotes : Bytes → Bytes
  | 0x5C :: 0x5C :: 0x22 :: rest => 0x5C :: 0x5C :: 0x5C :: 0x22 :: guardQuotes rest
  | b :: rest => b :: guardQuotes rest
  | [] => []

def escapeText (s : Bytes) : Bytes := guardQuotes (s.flatMap escapeControl)

def sheet (i : ApiInfo) : Sheet := tall [
  ("schemes", .text (Json.writeAt Json.compact 0 (.array (i.schemes.map .string)))),
  ("swagger", .word "2.0"),
  ("info", tall [
    ("description", .quoted (escapeText i.description)),
    ("title", .quoted i.title),
    ("contact", flat []),
    ("version", .quoted i.version)]),
  ("host", .quoted i.host),
  ("basePath", .quoted i.basePath),
  ("paths", paths),
  ("definitions", definitions),
  ("securityDefinitions", keys)]

/-- The instance that is asked for: an empty name means the usual one. -/
def askedInstance (i : ApiInfo) : Bytes := if i.instanceName.isEmpty then default.instanceName else i.instanceName

/-- The description, which is known under one name only; an error tells the name that is not known. -/
def document (i : ApiInfo) : Except Bytes Bytes :=
  if i.askedInstance == default.instanceName then .ok (i.sheet.write 0)
  else .error (utf8 "no swag named \"" ++ i.askedInstance ++ utf8 "\" was registered")

end ApiInfo

/-- The page that shows the description. -/
def indexPage : Bytes := utf8 "<!DOCTYPE html>
<html>
<head>
\t<title>recfactory API Documentation</title>
\t<link rel=\"stylesheet\" type=\"text/css\" href=\"https://unpkg.com/swagger-ui-dist@3.25.0/swagger-ui.css\" />
</head>
<body>
\t<div id=\"swagger-ui\"></div>
\t<script src=\"https://unpkg.com/swagger-ui-dist@3.25.0/swagger-ui-bundle.js\"></script>
\t<script>
\t  window.onload = function() \x7b
\t    SwaggerUIBundle(\x7b
\t      url: '/swagger/swagger.json',
\t      dom_id: '#swagger-ui',
\t      presets: [SwaggerUIBundle.presets.apis, SwaggerUIBundle.presets.standalone]
\t    \x7d);
\t  \x7d;
\t</script>
</body>
</html>"

end BoundedRecords.Api
