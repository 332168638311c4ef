import BoundedRecords.Command.Topic

/-! The help texts. -/
namespace BoundedRecords.Command

/-- A text between the first two backquotes of a usage names the value; the quotes are dropped. -/
def namedValue? (usage : Bytes) : Option (Bytes × Bytes) :=
  match Bytes.cut 0x60 usage with
  | (_, none) => none
  | (before, some rest) =>
    match Bytes.cut 0x60 rest with
    | (_, none) => none
    | (name, some after) => some (name, before ++ name ++ after)

namespace Flag

/-- The name of the value and the usage. -/
def shownUsage (f : Flag) : Bytes × Bytes :=
  match namedValue? f.usage with
  | some shown => shown
  | none =>
    (match f.initial with
      | .switch _ => []
      | .number _ => utf8 "int"
      | .text _ => utf8 "string", f.usage)

/-- The left column of a flag. -/
def column (f : Flag) : Bytes :=
  let (value, _) := f.shownUsage
  utf8 (if f.short.isSome then "  " else "      ") ++ f.label ++ (if value.isEmpty then [] else 0x20 :: value)

/-- An initial value is told unless it is the empty one. -/
def initialNote (f : Flag) : Bytes :=
  match f.initial with
  | .switch false | .number 0 | .text [] => []
  | .switch true => utf8 " (default true)"
  | .number n => utf8 " (default " ++ Decimal.ofInt64 n ++ utf8 ")"
  | .text s => utf8 " (default " ++ Quoted.text s ++ utf8 ")"

end Flag

def spaces (n : Nat) : Bytes := List.replicate n 0x20

/-- Flags in two columns. Further lines of a usage begin at the right column. -/
def flagTable (flags : List Flag) : Bytes :=
  let width := (flags.map fun f => f.column.length).foldl max 0
  Bytes.join [0x0A] (flags.map fun f =>
    let text := f.shownUsage.2 ++ f.initialNote
    f.column ++ spaces (width - f.column.length + 3) ++
      text.flatMap fun b => if b == 0x0A then b :: spaces (width + 3) else [b])

/-- The least width of the column of command names. -/
def nameWidth : Nat := 11

def commandTable (commands : List (String × String)) : Bytes :=
  commands.flatMap fun (name, summary) =>
    utf8 "\n  " ++ utf8 name ++ spaces (nameWidth - name.length) ++ 0x20 :: utf8 summary

/-- How a topic is called, what is below it and which flags there are; `own` are those shown as its own. -/
def usageText (defaultPath : Bytes) (t : Topic) (own : List Flag) : Bytes :=
  let path := utf8 t.path
  let below := t.below
  utf8 "Usage:" ++
    (if t.runs then utf8 "\n  " ++ path ++ utf8 t.synopsis ++ utf8 " [flags]" else []) ++
    (if below.isEmpty then [] else
      utf8 "\n  " ++ path ++ utf8 " [command]\n\nAvailable Commands:" ++ commandTable below) ++
    utf8 "\n\nFlags:\n" ++ flagTable own ++
    (if t == .program then [] else utf8 "\n\nGlobal Flags:\n" ++ flagTable (commonFlags defaultPath)) ++
    (if below.isEmpty then [] else
      utf8 "\n\nUse \"" ++ path ++ utf8 " [command] --help\" for more information about a command.") ++
    [0x0A]

/-- The flags that the help of a topic shows as its own. -/
def shownFlags (defaultPath : Bytes) (t : Topic) : List Flag :=
  match t with
  | .program => [budgetFlag, configFlag defaultPath, helpFlag t, verboseFlag]
  | t => ownFlags t

def helpText (defaultPath : Bytes) (t : Topic) : Bytes :=
  utf8 t.description ++ utf8 "\n\n" ++ usageText defaultPath t (shownFlags defaultPath t)

/-- What is said when help is asked for on something that is no topic. -/
def unknownTopic (defaultPath : Bytes) (words : List Bytes) : Bytes :=
  utf8 "Unknown help topic [" ++ Bytes.join [0x20] (words.map Quoted.backquoted) ++ utf8 "]\n" ++
    usageText defaultPath .program (commonFlags defaultPath)

end BoundedRecords.Command
