import BoundedRecords.Api.Answers
import BoundedRecords.Command.Help
import BoundedRecords.Command.Session

/-! Running a command line. -/
namespace BoundedRecords.Command

/-- What a command did within its session. -/
structure Effect (σ : Type) where
  writes : Writes
  logs : List LogEntry
  storage : σ
  error : Option CommandError
  served : Option (Service σ)

namespace Effect

variable {σ : Type}

def writing (writes : Writes) (storage : σ) : Effect σ := ⟨writes, [], storage, none, none⟩
def failing (e : CommandError) (storage : σ) : Effect σ := ⟨[], [], storage, some e, none⟩

end Effect

/-! Showing records. -/

def recordLine (p : Person) : Bytes := p.summary ++ utf8 ", Score: " ++ Decimal.ofNat p.score ++ utf8 ".0\n"

variable {σ : Type}

/-- Writes a value as indented JSON; only here is it noticed that nothing can be written. -/
def Surroundings.putJson (S : Surroundings σ) (v : Json) : Writes × Option CommandError :=
  match S.outputFault with
  | none => ([(.output, Json.write Json.indented v)], none)
  | some why => ([], some (.output why))

namespace Session

variable (S : Surroundings σ) (s : Session σ)

/-- Makes a record and shows it. -/
def create (json : Bool) (name ageText : Bytes) : Effect σ :=
  match Numeral.readSigned false ageText with
  | .error e => .failing (.age ageText e) s.storage
  | .ok age =>
    match s.maker.create name age s.storage with
    | .broken f storage => .failing (.fault f) storage
    | .refused e storage =>
      ⟨[], [⟨.debug, utf8 "create failed", [("error", .text e.message)]⟩], storage, some (.create e), none⟩
    | .done p storage =>
      let (writes, error) :=
        if json then S.putJson (Api.personView p) else (S.put .output (recordLine p), none)
      ⟨writes, [], s.maker.releaseAll [p] storage, error, none⟩

/-- Makes the records of a batch file and shows them. -/
def batch (fs : Files) (json : Bool) (path : Bytes) : Effect σ :=
  match BatchFile.inputs fs path with
  | .error e => .failing (.batchFile e) s.storage
  | .ok inputs =>
    match s.maker.createAll inputs s.storage with
    | .broken f storage => .failing (.fault f) storage
    | .refused e storage =>
      ⟨[], [⟨.debug, utf8 "batch failed", [("entries", .number inputs.length), ("error", .text e.message)]⟩],
        storage, some (.createAll inputs.length e), none⟩
    | .done people storage =>
      let (writes, error) :=
        if json then S.putJson (.array (people.map Api.personView))
        else
          (S.put .output (people.flatMap recordLine ++
            utf8 "Created " ++ Decimal.ofNat people.length ++ utf8 " records\n"), none)
      ⟨writes, [], s.maker.releaseAll people storage, error, none⟩

/-- The number of records that fit in a budget. -/
def recordsWithin (budget : Int64) : Int64 := budget / Person.size

def layoutText : Bytes :=
  utf8 "Name capacity:   " ++ Decimal.ofNat Name.capacity ++ utf8 " bytes\n" ++
  utf8 "Max name length: " ++ Decimal.ofNat Name.maxLength ++ utf8 " bytes\n" ++
  utf8 "Record size:     " ++ Decimal.ofInt64 Person.size ++ utf8 " bytes\n" ++
  utf8 "Allocator:       " ++ s.maker.kind s.storage ++ utf8 "\n" ++
  utf8 "Budget:          " ++
    (if 0 < s.config.budget then
      Decimal.ofInt64 s.config.budget ++ utf8 " bytes (" ++
        Decimal.ofInt64 (recordsWithin s.config.budget) ++ utf8 " records)\n"
    else utf8 "unlimited\n")

def layout : Effect σ := .writing (S.put .output s.layoutText) s.storage

/-- The configuration that is served: flags override the file. -/
def servedConfig (a : Arguments) : Config :=
  { s.config with
    port := (a.number? "port").getD s.config.port
    bind := (a.text? "bind").getD s.config.bind
    apiKey := (a.text? "api-key").getD s.config.apiKey }

/-- Announces the address and serves records there. -/
def serve (a : Arguments) : Effect σ :=
  let config := s.servedConfig a
  match config.validate with
  | .error e => .failing (.invalid e) s.storage
  | .ok () =>
    let service : Service σ := ⟨config, s.maker, s.storage⟩
    ⟨S.put .notice (utf8 "Starting recfactory REST API server on " ++ config.address ++ [0x0A]), [],
      s.storage, (S.serve service).map .serving, some service⟩

end Session

/-- Shows a help text. That nothing can be written is then said, and is no error. -/
def Surroundings.showHelp (S : Surroundings σ) (t : Topic) : Writes :=
  match S.outputFault with
  | none => [(.output, helpText S.defaultPath t)]
  | some why => [(.problem, why ++ [0x0A])]

/-- Shows help on the command that some words name. -/
def Surroundings.help (S : Surroundings σ) (words : List Bytes) : Writes :=
  match Topic.locate words with
  | .ok (t, _) => S.showHelp t
  | .error _ => S.put .notice (unknownTopic S.defaultPath words)

/-- The words that a command does not take. -/
def wordError? (t : Topic) (words : List Bytes) : Option CommandError :=
  match t, words with
  | .create, words => if words.length == 2 then none else some (.wordCount 2 words.length)
  | .batch, words => if words.length == 1 then none else some (.wordCount 1 words.length)
  | .layout, word :: _ | .init, word :: _ | .serve, word :: _ => some (.unexpectedWord t word)
  | _, _ => none

/-- Runs the command of a session. -/
def Session.run (S : Surroundings σ) (fs : Files) (t : Topic) (a : Arguments) (s : Session σ) : Effect σ :=
  match t, a.words with
  | .create, [name, age] => s.create S (a.switch "json") name age
  | .batch, [path] => s.batch S fs (a.switch "json") path
  | .layout, _ => s.layout S
  | .serve, _ => s.serve S a
  | .help, words => .writing (S.help words) s.storage
  | _, _ => .writing [] s.storage

/-- Writes a first configuration. -/
def initialise (S : Surroundings σ) (fs : Files) (a : Arguments) : Files × Writes × Option CommandError :=
  let given := (a.text? "config").getD []
  let path := if given.isEmpty then S.defaultPath else given
  if fs.mayExist path && !a.switch "force" then (fs, [], some (.present path))
  else
    match Config.bootstrap fs path ((a.number? "budget").getD 0) S.key with
    | (fs, .error e) => (fs, [], some (.bootstrap e))
    | (fs, .ok c) =>
      (fs, S.put .notice (utf8 "✅ Configuration created at " ++ path ++ [0x0A]) ++
        (if a.switch "print-key" then S.put .output (utf8 "API Key: " ++ c.apiKey ++ [0x0A]) else []), none)

/-- All that a run of the program left behind. -/
structure Report (σ : Type) where
  files : Files
  writes : Writes
  error : Option CommandError
  logger : Option Logger
  logs : List LogEntry
  /-- The storage of the session, if there was one. -/
  storage : Option σ
  served : Option (Service σ)

namespace Report

/-- The entries that the logger writes. -/
def written (r : Report σ) : List LogEntry :=
  match r.logger with
  | some g => g.written r.logs
  | none => []

/-- A run without a session. -/
def plain (files : Files) (writes : Writes) (error : Option CommandError) : Report σ :=
  ⟨files, writes, error, none, [], none, none⟩

end Report

/-- Runs the command that a line was found to be about. -/
def runTopic (S : Surroundings σ) (fs : Files) (t : Topic) (line : List Bytes) : Report σ :=
  match Arguments.read (allFlags S.defaultPath t) line with
  | .error e => .plain fs [] (some (.flag e))
  | .ok a =>
    if a.switch "help" || !t.runs then .plain fs (S.showHelp t) none
    else
      match wordError? t a.words with
      | some e => .plain fs [] (some e)
      | none =>
        if t == .init then
          let (fs, writes, error) := initialise S fs a
          .plain fs writes error
        else
          match Session.begin S fs a with
          | .error e => .plain fs [] (some e)
          | .ok s =>
            let e := s.run S fs t a
            ⟨fs, e.writes, e.error, some s.logger, s.entry t :: e.logs, some e.storage, e.served⟩

def errorLine (e : CommandError) : Writes := [(.problem, utf8 "Error: " ++ e.message ++ [0x0A])]

/-- Runs a command line. An error is written as well. -/
def run (S : Surroundings σ) (fs : Files) (line : List Bytes) : Report σ :=
  match Topic.locate line with
  | .error word =>
    let e := CommandError.unknownCommand word
    .plain fs (errorLine e ++ [(.problem, utf8 "Run 'recfactory --help' for usage.\n")]) (some e)
  | .ok (t, line) =>
    let r := runTopic S fs t line
    match r.error with
    | none => r
    | some e => { r with writes := r.writes ++ errorLine e }

end BoundedRecords.Command
