import BoundedRecords.Text.Case
import BoundedRecords.Text.Quoted

/-! Severities of log messages. -/
namespace BoundedRecords

inductive Level where
  | debug
  | info
  | warn
  | error
  | dpanic
  | panic
  | fatal
deriving DecidableEq, Repr

namespace Level

def all : List Level := [.debug, .info, .warn, .error, .dpanic, .panic, .fatal]

def number : Level → Int
  | .debug => -1
  | .info => 0
  | .warn => 1
  | .error => 2
  | .dpanic => 3
  | .panic => 4
  | .fatal => 5

def name : Level → String
  | .debug => "debug"
  | .info => "info"
  | .warn => "warn"
  | .error => "error"
  | .dpanic => "dpanic"
  | .panic => "panic"
  | .fatal => "fatal"

/-- The level of a small-letter word. -/
def ofWord? (word : Bytes) : Option Level :=
  if word == utf8 "warning" then some .warn else all.find? fun l => utf8 l.name == word

/-- A word that names no level. -/
structure Unknown where
  word : Bytes
deriving DecidableEq, Repr

def Unknown.message (u : Unknown) : Bytes :=
  utf8 "invalid log level " ++ Quoted.text u.word ++ utf8 ": unrecognized level: " ++ Quoted.text u.word

/-- The level that a word names in any mix of small and capital letters; no word means `info`. -/
def parse (word : Bytes) : Except Unknown Level :=
  if word.isEmpty then .ok .info
  else match ofWord? (Case.lower word) with
    | some l => .ok l
    | none => .error ⟨word⟩

end Level
end BoundedRecords
