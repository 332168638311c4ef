import BoundedRecords.Command.BatchFile
import BoundedRecords.Command.Topic
import BoundedRecords.Config.Store
import BoundedRecords.Log.Logger
import BoundedRecords.Record.Maker

/-! What a command runs with: its surroundings, and the session that is made from them. -/
namespace BoundedRecords.Command

/-- Why a command line comes to nothing. -/
inductive CommandError where
  | flag (e : FlagError)
  /-- The word that should have been a command. -/
  | unknownCommand (word : Bytes)
  | unexpectedWord (topic : Topic) (word : Bytes)
  | wordCount (expected received : Nat)
  /-- The program was not told how to make records. -/
  | unprepared
  | load (e : Config.LoadError)
  | invalid (e : Config.Invalid)
  | logger (e : Logger.Fault)
  | age (text : Bytes) (e : Numeral.Fault)
  | batchFile (e : BatchError)
  | create (e : BoundedRecords.Failure)
  | createAll (count : Nat) (e : BoundedRecords.Failure)
  | fault (f : BoundedRecords.Fault)
  /-- A configuration is not overwritten. -/
  | present (path : Bytes)
  | bootstrap (e : Config.BootstrapError)
  | output (why : Bytes)
  | serving (why : Bytes)

/-- The proposals for a word that is no command. -/
def proposalText (word : Bytes) : Bytes :=
  match proposals word with
  | [] => []
  | found => utf8 "\n\nDid you mean this?\n" ++ found.flatMap fun t => 0x09 :: utf8 t.name ++ [0x0A]

def unknownWord (word : Bytes) (t : Topic) : Bytes :=
  utf8 "unknown command " ++ Quoted.text word ++ utf8 " for " ++ Quoted.text (utf8 t.path)

def CommandError.message : CommandError → Bytes
  | .flag e => e.message
  | .unknownCommand word => unknownWord word .program ++ proposalText word
  | .unexpectedWord topic word => unknownWord word topic
  | .wordCount expected received =>
    utf8 "accepts " ++ Decimal.ofNat expected ++ utf8 " arg(s), received " ++ Decimal.ofNat received
  | .unprepared => utf8 "dependency container not initialized"
  | .load e => utf8 "failed to load config: " ++ e.message
  | .invalid e => e.message
  | .logger e => e.message
  | .age text e =>
    utf8 "invalid age " ++ Quoted.text text ++ utf8 ": " ++ unreadable "strconv.Atoi" text (numberFault e)
  | .batchFile e => e.message
  | .create e => utf8 "failed to create record: " ++ e.message
  | .createAll count e => utf8 "failed to create " ++ Decimal.ofNat count ++ utf8 " records: " ++ e.message
  | .fault f => f.message
  | .present path =>
    utf8 "config already exists at " ++ path ++ utf8 " (use --force to overwrite)"
  | .bootstrap e => e.message
  | .output why => why
  | .serving why => why

/-- Where a command writes. Notices belong to neither of the other two. -/
inductive Channel where
  | output
  | notice
  | problem
deriving DecidableEq, Repr

abbrev Writes := List (Channel × Bytes)

/-- A host that is to be served. -/
structure Service (σ : Type) where
  config : Config
  maker : Maker σ
  storage : σ

/-- What surrounds the program. -/
structure Surroundings (σ : Type) where
  /-- The home directory, empty if there is none. -/
  home : Bytes
  /-- How records are made under a budget. -/
  provide : Option (Int64 → Maker σ × σ)
  /-- The key that a new configuration gets. -/
  key : Bytes
  /-- Why nothing can be written, if so. -/
  outputFault : Option Bytes
  /-- Why serving ends, if not because it was told to. -/
  serve : Service σ → Option Bytes

namespace Surroundings

variable {σ : Type} (S : Surroundings σ)

def defaultPath : Bytes := Config.defaultPath S.home

/-- Writes a text, whether it arrives or not. -/
def put (channel : Channel) (text : Bytes) : Writes :=
  match S.outputFault with
  | none => [(channel, text)]
  | some _ => []

end Surroundings

structure Session (σ : Type) where
  config : Config
  logger : Logger
  maker : Maker σ
  storage : σ

/-- The configuration in the given file, else in the default one if it seems to be there, else the
defaults. -/
def resolveConfig (fs : Files) (defaultPath given : Bytes) : Except Config.LoadError Config :=
  if !given.isEmpty then Config.load fs given
  else if fs.mayExist defaultPath then Config.load fs defaultPath
  else .ok Config.default

/-- Makes the session of a command. A budget on the command line overrides that of the file. -/
def Session.begin {σ : Type} (S : Surroundings σ) (fs : Files) (a : Arguments) : Except CommandError (Session σ) := do
  let some provide := S.provide | throw .unprepared
  let config ←
    match resolveConfig fs S.defaultPath ((a.text? "config").getD []) with
    | .ok c => pure c
    | .error e => throw (.load e)
  let config := { config with budget := (a.number? "budget").getD config.budget }
  match config.validate with
  | .error e => throw (.invalid e)
  | .ok () =>
    match Logger.new config.level config.format (a.switch "verbose") with
    | .error e => throw (.logger e)
    | .ok logger =>
      let (maker, storage) := provide config.budget
      return ⟨config, logger, maker, storage⟩

/-- The entry with which a session begins. -/
def Session.entry {σ : Type} (s : Session σ) (t : Topic) : LogEntry :=
  ⟨.debug, utf8 "session ready",
    [("command", .text (utf8 t.name)), ("budget_bytes", .number s.config.budget.toInt)]⟩

end BoundedRecords.Command
