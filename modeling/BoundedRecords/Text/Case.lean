import BoundedRecords.Text.Utf8

/-! Letter case, for comparisons with ASCII words. -/
namespace BoundedRecords.Case

/-- Capital letters whose small letter is encoded in a different number of bytes. -/
def shifting : List (Nat × Nat) := [
  (0x130, 0x69), (0x23A, 0x2C65), (0x23E, 0x2C66), (0x1E9E, 0xDF), (0x2126, 0x3C9), (0x212A, 0x6B),
  (0x212B, 0xE5), (0x2C62, 0x26B), (0x2C64, 0x27D), (0x2C6D, 0x251), (0x2C6E, 0x271),
  (0x2C6F, 0x250), (0x2C70, 0x252), (0x2C7E, 0x23F), (0x2C7F, 0x240), (0xA78D, 0x265),
  (0xA7AA, 0x266), (0xA7AB, 0x25C), (0xA7AC, 0x261), (0xA7AD, 0x26C), (0xA7AE, 0x26A),
  (0xA7B0, 0x29E), (0xA7B1, 0x287), (0xA7B2, 0x29D), (0xA7C5, 0x282)]

/-- The small letter of a character. Exact on ASCII and in the number of bytes; a small letter
outside ASCII is otherwise not told from its capital, since no word compared with has one. -/
def lowerChar (c : Char) : Char :=
  if c.toNat < 0x80 then c.toLower
  else match shifting.lookup c.toNat with
    | some n => Char.ofNat n
    | none => c

/-- Small letters; a stray byte becomes U+FFFD. -/
def lower (s : Bytes) : Bytes := (Utf8.chars s).flatMap fun c => Utf8.encode (lowerChar c)

/-- The capital of a character, as far as it is an ASCII letter: the dotless i and the long s have
one too. -/
def upperChar (c : Char) : Char :=
  if c.toNat == 0x131 then 'I' else if c.toNat == 0x17F then 'S'
  else if c.toNat < 0x80 then c.toUpper else c

def upper (s : Bytes) : Bytes := (Utf8.chars s).flatMap fun c => Utf8.encode (upperChar c)

end BoundedRecords.Case
