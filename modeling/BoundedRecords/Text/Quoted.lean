import BoundedRecords.Text.Numeral
import BoundedRecords.Text.Printable
import BoundedRecords.Text.Utf8

/-! Text between quotes, as messages show it: printable characters stand for themselves, all others
and stray bytes are escaped. -/
namespace BoundedRecords.Quoted

/-- The escape of a character that is not printable. -/
def escape (c : Char) : Bytes :=
  match c.toNat with
  | 7 => utf8 "\\a"
  | 8 => utf8 "\\b"
  | 9 => utf8 "\\t"
  | 10 => utf8 "\\n"
  | 11 => utf8 "\\v"
  | 12 => utf8 "\\f"
  | 13 => utf8 "\\r"
  | n =>
    if n < 0x80 then utf8 "\\x" ++ Hex.ofNat 2 n
    else if n < 0x10000 then utf8 "\\u" ++ Hex.ofNat 4 n
    else utf8 "\\U" ++ Hex.ofNat 8 n

/-- One character inside the quotes `mark`. -/
def character (mark c : Char) : Bytes :=
  if c == mark || c == '\\' then 0x5C :: Utf8.encode c
  else if isPrintable c then Utf8.encode c
  else escape c

def piece (mark : Char) : Utf8.Piece → Bytes
  | .char c => character mark c
  | .stray b => utf8 "\\x" ++ Hex.ofByte b

/-- The text in double quotes. -/
def text (s : Bytes) : Bytes := 0x22 :: (Utf8.pieces s).flatMap (piece '"') ++ [0x22]

/-- One character in single quotes. -/
def letter (c : Char) : Bytes := 0x27 :: character '\'' c ++ [0x27]

/-- Whether a text can stand between backquotes as it is. -/
def fitsBackquotes (s : Bytes) : Bool :=
  (Utf8.pieces s).all fun
    | .char c =>
      c != Char.ofNat 0xFEFF && c != Char.ofNat 0x60 &&
        (c == '\t' || (0x20 ≤ c.toNat && c.toNat != 0x7F))
    | .stray _ => false

/-- The text in backquotes if it fits, else in double quotes. -/
def backquoted (s : Bytes) : Bytes :=
  if fitsBackquotes s then 0x60 :: s ++ [0x60] else text s

end BoundedRecords.Quoted
