import BoundedRecords.Config.Document
import BoundedRecords.Files.Tree
import BoundedRecords.Storage.Failure

/-! Configuration files: loading, saving, and writing a first one with a new key. -/
namespace BoundedRecords.Config

inductive LoadError where
  | missing (path : Bytes)
  | unreadable (e : PathError)
  | unparsable (e : Yaml.DecodeError)
  | invalid (path : Bytes) (e : Invalid)
deriving DecidableEq, Repr

def LoadError.message : LoadError → Bytes
  | .missing path => utf8 "config file does not exist: " ++ path
  | .unreadable e => utf8 "failed to read config file: " ++ e.message
  | .unparsable e => utf8 "failed to parse config file: " ++ e.message
  | .invalid path e => utf8 "invalid config file " ++ path ++ utf8 ": " ++ e.message

/-- The valid configuration in a file. Fields that the file does not set keep their defaults. -/
def load (fs : Files) (path : Bytes) : Except LoadError Config :=
  if !fs.mayExist path then .error (.missing path)
  else
    let path := fs.absolute path
    match fs.read path with
    | .error e => .error (.unreadable e)
    | .ok content =>
      match parse content with
      | .error e => .error (.unparsable e)
      | .ok c =>
        match c.validate with
        | .error e => .error (.invalid path e)
        | .ok () => .ok c

inductive SaveError where
  | directory (e : PathError)
  | file (e : PathError)
deriving DecidableEq, Repr

def SaveError.message : SaveError → Bytes
  | .directory e => utf8 "failed to create config directory: " ++ e.message
  | .file e => utf8 "failed to write config file: " ++ e.message

/-- The modes of new directories and files; a file may hold the key. -/
def directoryMode : Nat := 0o750
def fileMode : Nat := 0o600

/-- Writes a configuration, valid or not. Directories are made on the way; what was made stays even
if the file cannot be written. -/
def save (fs : Files) (path : Bytes) (c : Config) : Files × Option SaveError :=
  let parent := Path.parent path
  match Files.makeDirectories directoryMode (parent.length + 1) parent fs with
  | (made, some e) => (made, some (.directory e))
  | (made, none) =>
    match made.write path fileMode c.render with
    | .error e => (made, some (.file e))
    | .ok written => (written, none)

/-- The number of random bytes in a key. -/
def keyBytes : Nat := 32

/-- A key of random bytes in hexadecimal digits. -/
def generateKey (random : Nat → Bytes) (length : Int) : Except Fault Bytes :=
  match length with
  | .ofNat n => .ok (Hex.ofBytes (random n))
  | .negSucc _ => .error .negativeLength

inductive BootstrapError where
  | invalid (e : Invalid)
  | save (e : SaveError)
deriving DecidableEq, Repr

def BootstrapError.message : BootstrapError → Bytes
  | .invalid e => e.message
  | .save e => utf8 "failed to save bootstrap config: " ++ e.message

/-- Writes the defaults with a budget and a new key. -/
def bootstrap (fs : Files) (path : Bytes) (budget : Int64) (key : Bytes) : Files × Except BootstrapError Config :=
  let c := { default with budget := budget, apiKey := key }
  match c.validate with
  | .error e => (fs, .error (.invalid e))
  | .ok () =>
    match save fs path c with
    | (fs, some e) => (fs, .error (.save e))
    | (fs, none) => (fs, .ok c)

/-- Where the configuration is looked for when no path is given. -/
def defaultPath (home : Bytes) : Bytes :=
  if home.isEmpty then utf8 "./recfactory.yaml"
  else Path.join home (utf8 ".config/recfactory/config.yaml")

end BoundedRecords.Config
