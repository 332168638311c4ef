import BoundedRecords.Log.Level

/-! Log messages and the logger that writes them. The structured format writes one object a line and
thins out repeated messages; the console format writes every line. -/
namespace BoundedRecords

inductive LogValue where
  | text (s : Bytes)
  | number (n : Int)
  | flag (b : Bool)
deriving DecidableEq, Repr

structure LogEntry where
  level : Level
  message : Bytes
  fields : List (String × LogValue)
deriving DecidableEq, Repr

inductive LogFormat where
  | json
  | console
deriving DecidableEq, Repr

structure Logger where
  format : LogFormat
  level : Level
deriving DecidableEq, Repr

namespace Logger

inductive Fault where
  | unknownFormat (word : Bytes)
  | unknownLevel (u : Level.Unknown)
deriving DecidableEq, Repr

def Fault.message : Fault → Bytes
  | .unknownFormat word => utf8 "unknown log format: " ++ Quoted.text word
  | .unknownLevel u => u.message

def formatOf (word : Bytes) : Except Fault LogFormat :=
  if word == utf8 "console" then .ok .console
  else if word == utf8 "json" || word.isEmpty then .ok .json
  else .error (.unknownFormat word)

/-- The logger that two configured words describe; `verbose` overrides the level, not its check. -/
def new (level format : Bytes) (verbose : Bool) : Except Fault Logger := do
  let f ← formatOf format
  match Level.parse level with
  | .error u => throw (.unknownLevel u)
  | .ok l => return ⟨f, if verbose then .debug else l⟩

def enabled (g : Logger) (l : Level) : Bool := g.level.number ≤ l.number

/-- How many entries of one level and message are written before thinning starts, and which of the
later ones still are. -/
def sampleSize : Nat := 100

def isSampled (count : Nat) : Bool := count ≤ sampleSize || count % sampleSize == 0

/-- Writes the entries of one second, given those that came before. -/
def sampleAfter (seen : List LogEntry) : List LogEntry → List LogEntry
  | [] => []
  | e :: rest =>
    let same := seen.countP fun s => s.level == e.level && s.message == e.message
    if isSampled (same + 1) then e :: sampleAfter (e :: seen) rest else sampleAfter (e :: seen) rest

/-- The entries that are written, of those logged within one second. -/
def written (g : Logger) (entries : List LogEntry) : List LogEntry :=
  let loud := entries.filter fun e => g.enabled e.level
  match g.format with
  | .json => sampleAfter [] loud
  | .console => loud

end Logger

namespace LogEntry

def escapeChar (c : Char) : Bytes :=
  match c with
  | '"' => utf8 "\\\""
  | '\\' => utf8 "\\\\"
  | '\n' => utf8 "\\n"
  | '\r' => utf8 "\\r"
  | '\t' => utf8 "\\t"
  | c => if c.toNat < 0x20 then utf8 "\\u" ++ Hex.ofNat 4 c.toNat else Utf8.encode c

def textValue (s : Bytes) : Bytes :=
  0x22 :: (Utf8.pieces s).flatMap (fun
    | .char c => escapeChar c
    | .stray _ => utf8 "\\ufffd") ++ [0x22]

def value : LogValue → Bytes
  | .text s => textValue s
  | .number n => Decimal.ofInt n
  | .flag b => utf8 (if b then "true" else "false")

/-- The fields as the end of a console line; nothing when there are none. -/
def consoleFields (e : LogEntry) : Option Bytes :=
  if e.fields.isEmpty then none
  else some (utf8 "\x7b" ++
    Bytes.join (utf8 ", ") (e.fields.map fun (k, v) => textValue (utf8 k) ++ utf8 ": " ++ value v) ++
    utf8 "\x7d")

/-- An entry as one line. -/
def line (format : LogFormat) (e : LogEntry) : Bytes :=
  match format with
  | .json =>
    let members := [("level", LogValue.text (utf8 e.level.name)), ("msg", LogValue.text e.message)] ++ e.fields
    utf8 "\x7b" ++
      Bytes.join (utf8 ",") (members.map fun (k, v) => textValue (utf8 k) ++ utf8 ":" ++ value v) ++
      utf8 "\x7d\n"
  | .console =>
    Bytes.join [0x09]
      (utf8 (e.level.name.map Char.toUpper) :: e.message :: e.consoleFields.toList) ++ [0x0A]

end LogEntry
end BoundedRecords
