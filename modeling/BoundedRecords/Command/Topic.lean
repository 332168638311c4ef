import BoundedRecords.Command.Arguments
import BoundedRecords.Text.Case

/-! The commands of the program: their names, what is said about them and the flags they take. -/
namespace BoundedRecords.Command

def program : String := "recfactory"

/-- What a command line is about: the program as a whole, or one of its commands. -/
inductive Topic where
  | program
  | create
  | batch
  | layout
  | init
  | serve
  | help
  | completion
deriving DecidableEq, Repr

namespace Topic

/-- The commands, in the order in which they are proposed. -/
def commands : List Topic := [.create, .batch, .layout, .init, .serve, .help, .completion]

def name : Topic → String
  | .program => Command.program
  | .create => "create"
  | .batch => "batch"
  | .layout => "layout"
  | .init => "init"
  | .serve => "serve"
  | .help => "help"
  | .completion => "completion"

def summary : Topic → String
  | .program => "recfactory - fixed-capacity record builder"
  | .create => "Create a record"
  | .batch => "Create records from a YAML file"
  | .layout => "Show the record layout and allocator settings"
  | .init => "Write a default configuration file"
  | .serve => "Start the REST API server"
  | .help => "Help about any command"
  | .completion => "Generate the autocompletion script for the specified shell"

def description : Topic → String
  | .program => "recfactory builds Person records with a bounded 100-byte name buffer.

Names longer than 99 bytes are truncated silently. The only failure is
allocation failure, which can be provoked by setting an allocator budget."
  | .create => "Create a Person record and print it.

Names longer than 99 bytes are truncated. Use -- before negative ages.

Examples:
  recfactory create Alice 30
  recfactory create --json Alice 30
  recfactory create -- Bob -5"
  | .batch => "Create one record per entry of a YAML list. Either every record is
created or, on allocation failure, none is.

File format:
  - name: Alice
    age: 30
  - name: Bob
    age: 41

Example:
  recfactory batch people.yaml --budget 4096"
  | .layout => summary .layout
  | .init => "Write a configuration file with a generated API key.

Examples:
  recfactory init
  recfactory init --config ./recfactory.yaml --budget 65536 --print-key"
  | .serve => "Start the recfactory REST API server.

Records are built per request and released once the response is written.
Flags override the config file.

Examples:
  recfactory serve
  recfactory serve --port 9000 --api-key mysecretkey --budget 65536"
  | .help => "Help provides help for any command in the application.
Simply type recfactory help [path to command] for full details."
  | .completion => "Generate the autocompletion script for recfactory for the specified shell.
See each sub-command's help for details on how to use the generated script."

/-- The words that follow the name of a command. -/
def synopsis : Topic → String
  | .create => " <name> <age>"
  | .batch => " <file.yaml>"
  | .help => " [command]"
  | _ => ""

/-- The program and its commands as they are called. -/
def path : Topic → String
  | .program => Command.program
  | t => Command.program ++ " " ++ t.name

/-- Whether there is something to run; otherwise help is shown. -/
def runs : Topic → Bool
  | .program | .completion => false
  | _ => true

/-- The commands below a topic with their summaries, in the order of their names. -/
def below : Topic → List (String × String)
  | .program => [batch, completion, create, help, init, layout, serve].map fun t => (t.name, t.summary)
  | .completion => ["bash", "fish", "powershell", "zsh"].map fun shell =>
      (shell, "Generate the autocompletion script for " ++ shell)
  | _ => []

end Topic

/-! Flags, in the order of their names. -/

def budgetFlag : Flag :=
  ⟨"budget", none, .number 0,
    utf8 "Allocator budget in bytes for live records (0 = unlimited); overrides config"⟩

/-- The flag tells the path that is used without it. -/
def configFlag (defaultPath : Bytes) : Flag :=
  ⟨"config", some 0x63, .text [], utf8 "Config file (default " ++ defaultPath ++ utf8 " if present)"⟩

def verboseFlag : Flag := ⟨"verbose", some 0x76, .switch false, utf8 "Enable debug logging"⟩

/-- The flags of every command. -/
def commonFlags (defaultPath : Bytes) : List Flag := [budgetFlag, configFlag defaultPath, verboseFlag]

def helpFlag (t : Topic) : Flag := ⟨"help", some 0x68, .switch false, utf8 "help for " ++ utf8 t.name⟩

def switchFlag (name usage : String) : Flag := ⟨name, none, .switch false, utf8 usage⟩

/-- The flags of a command alone, help among them. -/
def ownFlags (t : Topic) : List Flag :=
  match t with
  | .create => [helpFlag t, switchFlag "json" "Print the record as JSON"]
  | .batch => [helpFlag t, switchFlag "json" "Print the records as a JSON array"]
  | .init => [
      switchFlag "force" "Overwrite an existing config file",
      helpFlag t,
      switchFlag "print-key" "Print the generated API key"]
  | .serve => [
      ⟨"api-key", none, .text [], utf8 "API key for X-API-Key authentication (empty disables it)"⟩,
      ⟨"bind", none, .text (utf8 "127.0.0.1"), utf8 "Address to bind"⟩,
      helpFlag t,
      ⟨"port", some 0x70, .number 8080, utf8 "Port to listen on"⟩]
  | _ => [helpFlag t]

/-- All flags that a command line about `t` may have. -/
def allFlags (defaultPath : Bytes) (t : Topic) : List Flag := ownFlags t ++ commonFlags defaultPath

/-! Finding the command. -/

/-- One row of the table of edit distances: `left` is the entry before those still to come, and `above`
begins with the entry above it. -/
def editRow (c : UInt8) (left : Nat) : (word : Bytes) → (above : List Nat) → List Nat
  | b :: word, diagonal :: up :: above =>
    let n := if c == b then diagonal else 1 + min diagonal (min up left)
    n :: editRow c n word (up :: above)
  | _, _ => []

def nextRow (word : Bytes) (above : List Nat) (c : UInt8) : List Nat :=
  let first := above.headD 0 + 1
  first :: editRow c first word above

/-- The least number of bytes inserted, removed or replaced that lead from one text to the other. -/
def editDistance (s t : Bytes) : Nat := (s.foldl (nextRow t) (List.range (t.length + 1))).getLastD 0

/-- Whether a command is proposed for a word that is none: for a slip or a beginning, whatever the case. -/
def isProposed (word : Bytes) (t : Topic) : Bool :=
  let typed := Case.lower word
  t != .help && (editDistance typed (utf8 t.name) ≤ 2 || typed.isPrefixOf (utf8 t.name))

def proposals (word : Bytes) : List Topic := Topic.commands.filter (isProposed word)

/-- The command that a line is about, and the line without its name; an error is a word that is no
command. -/
def Topic.locate (line : List Bytes) : Except Bytes (Topic × List Bytes) :=
  let flags := commonFlags []
  match wordsOf flags line with
  | [] => .ok (.program, line)
  | word :: _ =>
    match Topic.commands.find? fun t => utf8 t.name == word with
    | some t => .ok (t, withoutWord flags word line)
    | none => .error word

end BoundedRecords.Command
