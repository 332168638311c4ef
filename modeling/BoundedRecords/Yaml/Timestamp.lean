import BoundedRecords.Text.Bytes

/-! Dates, with or without a time of day, as plain YAML scalars. -/
namespace BoundedRecords.Yaml.Timestamp

def twoDigits : Bytes → Option (Nat × Bytes)
  | a :: b :: rest =>
    if Bytes.isDigit a && Bytes.isDigit b then some ((a.toNat - 48) * 10 + (b.toNat - 48), rest) else none
  | _ => none

/-- A number of one or two digits. -/
def number : Bytes → Option (Nat × Bytes)
  | a :: rest =>
    match twoDigits (a :: rest) with
    | some r => some r
    | none => if Bytes.isDigit a then some (a.toNat - 48, rest) else none
  | [] => none

def expect (b : UInt8) : Bytes → Option Bytes
  | a :: rest => if a == b then some rest else none
  | [] => none

def isLeap (year : Nat) : Bool := year % 4 == 0 && (year % 100 != 0 || year % 400 == 0)

def daysIn (month year : Nat) : Nat :=
  if month == 2 then (if isLeap year then 29 else 28)
  else if month == 4 || month == 6 || month == 9 || month == 11 then 30 else 31

/-- A day of the calendar: a year of four digits, month and day of one or two. -/
def date (s : Bytes) : Option Bytes := do
  let year := s.take 4
  if year.length != 4 || !year.all Bytes.isDigit then none
  else
    let n := year.foldl (fun n b => n * 10 + (b.toNat - 48)) 0
    let s ← expect 0x2D (s.drop 4)
    let (month, s) ← number s
    let s ← expect 0x2D s
    let (day, s) ← number s
    if 1 ≤ month && month ≤ 12 && 1 ≤ day && day ≤ daysIn month n then some s else none

def fraction : Bytes → Bytes
  | a :: b :: rest =>
    if (a == 0x2E || a == 0x2C) && Bytes.isDigit b then rest.dropWhile Bytes.isDigit else a :: b :: rest
  | s => s

def time (s : Bytes) : Option Bytes := do
  let (hour, s) ← number s
  let s ← expect 0x3A s
  let (minute, s) ← number s
  let s ← expect 0x3A s
  let (second, s) ← number s
  if hour < 24 && minute < 60 && second < 60 then some (fraction s) else none

/-- The letter of universal time, or an offset of hours and minutes. -/
def zone : Bytes → Option Bytes
  | 0x5A :: rest => some rest
  | sign :: s => do
    let (hours, s) ← twoDigits s
    let s ← expect 0x3A s
    let (minutes, s) ← twoDigits s
    if (sign == 0x2B || sign == 0x2D) && hours ≤ 24 && minutes ≤ 60 then some s else none
  | [] => none

def afterDate : Bytes → Option Bytes
  | [] => some []
  | 0x54 :: s => (time s).bind zone
  | 0x74 :: s => (time s).bind zone
  | 0x20 :: s => time (s.dropWhile (· == 0x20))
  | _ => none

/-- Whether a text is a date. -/
def accepts (s : Bytes) : Bool := (date s).bind afterDate == some []

end BoundedRecords.Yaml.Timestamp
