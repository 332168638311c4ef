import BoundedRecords.Files.Path

/-! A file system. A location is the list of names that lead to it from the root; a path is resolved
to a location by walking through directories, each of which must exist. -/
namespace BoundedRecords

inductive FileEntry where
  | file (mode : Nat) (content : Bytes)
  | directory (mode : Nat)
deriving DecidableEq, Repr

abbrev Location := List Bytes

inductive PathFault where
  | notFound
  | notDirectory
  | isDirectory
  | present
  | nameTooLong
  | invalid
deriving DecidableEq, Repr

def PathFault.message : PathFault → Bytes
  | .notFound => utf8 "no such file or directory"
  | .notDirectory => utf8 "not a directory"
  | .isDirectory => utf8 "is a directory"
  | .present => utf8 "file exists"
  | .nameTooLong => utf8 "file name too long"
  | .invalid => utf8 "invalid argument"

/-- A failed operation on a path. -/
structure PathError where
  operation : String
  path : Bytes
  fault : PathFault
deriving DecidableEq, Repr

def PathError.message (e : PathError) : Bytes :=
  utf8 e.operation ++ 0x20 :: e.path ++ utf8 ": " ++ e.fault.message

structure Files where
  entry : Location → Option FileEntry
  /-- Where relative paths start. -/
  working : Location

namespace Files

def put (fs : Files) (l : Location) (e : FileEntry) : Files :=
  { fs with entry := fun l' => if l' = l then some e else fs.entry l' }

/-- The longest name of an entry, and the longest path. -/
def maxName : Nat := 255
def maxPath : Nat := 4095

def isDirectory (fs : Files) (l : Location) : Except PathFault Unit :=
  match fs.entry l with
  | none => .error .notFound
  | some (.file ..) => .error .notDirectory
  | some (.directory _) => .ok ()

/-- Where one name leads. -/
def next (l : Location) (name : Bytes) : Location :=
  if name == Path.dot then l else if name == Path.dotDot then l.dropLast else l ++ [name]

/-- Follows names. Every place but the last must be a directory. -/
def walk (fs : Files) : Location → List Bytes → Except PathFault Location
  | l, [] => .ok l
  | l, name :: names => do
    fs.isDirectory l
    if maxName < name.length then throw .nameTooLong
    fs.walk (next l name) names

/-- The names of a path; a slash at the end asks for a directory. -/
def names (p : Bytes) : List Bytes :=
  Path.components p ++ (if p.getLast? == some Path.slash then [Path.dot] else [])

/-- The location of a path. The last place need not exist. -/
def locate (fs : Files) (p : Bytes) : Except PathFault Location :=
  if p.isEmpty then .error .notFound
  else if p.contains 0 then .error .invalid
  else if maxPath < p.length then .error .nameTooLong
  else fs.walk (if Path.isAbsolute p then [] else fs.working) (names p)

def failed {α : Type} (operation : String) (p : Bytes) : Except PathFault α → Except PathError α
  | .ok a => .ok a
  | .error e => .error ⟨operation, p, e⟩

/-- The entry at a path. -/
def stat (fs : Files) (p : Bytes) : Except PathError FileEntry :=
  failed "stat" p do
    let l ← fs.locate p
    match fs.entry l with
    | some e => return e
    | none => throw .notFound

/-- The content of a file. -/
def read (fs : Files) (p : Bytes) : Except PathError Bytes :=
  match fs.stat p with
  | .error e => .error { e with operation := "open" }
  | .ok (.directory _) => .error ⟨"read", p, .isDirectory⟩
  | .ok (.file _ content) => .ok content

/-- Writes a file. An existing file keeps its mode. A file that could be opened is written in full: faults
after that, such as a full disk, are left out. -/
def write (fs : Files) (p : Bytes) (mode : Nat) (content : Bytes) : Except PathError Files :=
  failed "open" p do
    let trimmed := (p.reverse.dropWhile (· == Path.slash)).reverse
    let l ← fs.locate (if trimmed.isEmpty then p else trimmed)
    match fs.entry l with
    | some (.directory _) => throw .isDirectory
    | some (.file old _) =>
      if trimmed != p then throw .isDirectory
      return fs.put l (.file old content)
    | none =>
      if trimmed != p then throw .isDirectory
      return fs.put l (.file mode content)

/-- Makes one directory. -/
def makeDirectory (fs : Files) (p : Bytes) (mode : Nat) : Except PathError Files :=
  failed "mkdir" p do
    let l ← fs.locate p
    match fs.entry l with
    | some _ => throw .present
    | none => return fs.put l (.directory mode)

/-- The path without its last component, if there is more than the root before it. -/
def above (p : Bytes) : Option Bytes :=
  let r := p.reverse.dropWhile (· == Path.slash)
  let before := (r.dropWhile (· != Path.slash)).reverse
  if 1 < before.length then some before.dropLast else none

/-- Makes a directory together with those above it. Those made before a failure stay. -/
def makeDirectories (mode : Nat) : (fuel : Nat) → Bytes → Files → Files × Option PathError
  | 0, _, fs => (fs, none)
  | fuel + 1, p, fs =>
    match fs.stat p with
    | .ok (.directory _) => (fs, none)
    | .ok (.file ..) => (fs, some ⟨"mkdir", p, .notDirectory⟩)
    | .error _ =>
      let above :=
        match above p with
        | some q => makeDirectories mode fuel q fs
        | none => (fs, none)
      match above with
      | (fs, some e) => (fs, some e)
      | (fs, none) =>
        match fs.makeDirectory p mode with
        | .ok fs => (fs, none)
        | .error e => (fs, some e)

/-- Whether something may stand at a path: false only if it is certain that nothing does. -/
def mayExist (fs : Files) (p : Bytes) : Bool :=
  match fs.stat p with
  | .error e => e.fault != .notFound
  | .ok _ => true

/-- The working directory as a path. -/
def workingPath (fs : Files) : Bytes := Path.slash :: Bytes.join [Path.slash] fs.working

/-- A path that does not depend on the working directory. -/
def absolute (fs : Files) (p : Bytes) : Bytes :=
  if Path.isAbsolute p then p else Path.join fs.workingPath p

end Files
end BoundedRecords
