import BoundedRecords.Text.Numeral

/-! Numbers of 53 significant bits, as gauges show them and as a decimal fraction is read. A number
is a natural `mantissa` times a power of two. -/
namespace BoundedRecords

structure Binary64 where
  mantissa : Nat
  exponent : Int
deriving DecidableEq, Repr

namespace Binary64

/-- The least mantissa of 53 bits. -/
def leastMantissa : Nat := 0x10000000000000

/-- The quotient rounded to the nearest whole number, a tie to the even one. -/
def roundDiv (num den : Nat) : Nat :=
  let q := num / den
  let r := num % den
  if 2 * r < den then q
  else if den < 2 * r then q + 1
  else if q % 2 == 0 then q else q + 1

/-- The quotient of `num` by `den` times a power of two. -/
def scale (num den : Nat) (power : Int) : Nat × Nat :=
  match power with
  | .ofNat k => (num, den * Nat.pow 2 k)
  | .negSucc k => (num * Nat.pow 2 (k + 1), den)

/-- The power of two that leaves 53 bits before the point, but never below the smallest one. -/
def exponentFor (num den : Nat) : Int :=
  let guess : Int := (num.log2 : Int) - (den.log2 : Int) - 52
  let (n, d) := scale num den guess
  max (if n < leastMantissa * d then guess - 1 else guess) (-1074)

/-- The nearest number to a positive quotient; none when it is too large. -/
def ofQuotient (num den : Nat) : Option Binary64 :=
  if num == 0 then some ⟨0, 0⟩
  else
    let e := exponentFor num den
    let (n, d) := scale num den e
    let m := roundDiv n d
    let (m, e) := if m == 2 * leastMantissa then (leastMantissa, e + 1) else (m, e)
    if e > 971 then none else some ⟨m, e⟩

/-- The whole part. -/
def floor (x : Binary64) : Nat :=
  match x.exponent with
  | .ofNat k => x.mantissa * Nat.pow 2 k
  | .negSucc k => x.mantissa / Nat.pow 2 (k + 1)

/-- The nearest number of 53 bits to a natural. -/
def ofNat (n : Nat) : Binary64 :=
  let k := n.log2 - 52
  ⟨roundDiv n (Nat.pow 2 k), k⟩

def roundNat (n : Nat) : Nat := (ofNat n).floor

/-- The nearest number to `digits` times a power of ten. -/
def ofScientific (digits : Nat) (power : Int) : Option Binary64 :=
  if digits == 0 then some ⟨0, 0⟩
  else
    let size : Int := (Decimal.ofNat digits).length + power
    if size > 310 then none
    else if size < -330 then some ⟨0, 0⟩
    else match power with
      | .ofNat k => ofQuotient (digits * Nat.pow 10 k) 1
      | .negSucc k => ofQuotient digits (Nat.pow 10 (k + 1))

/-- Whether the natural `c` is nearer to `v` than to its neighbours among numbers of 53 bits, the
half way points included when the mantissa of `v` is even. -/
def readsAs (v c : Nat) : Bool :=
  let k := v.log2 - 52
  let unit := Nat.pow 2 k
  let m := v / unit
  let below := if m == leastMantissa && 0 < k then unit / 2 else unit
  if c ≤ v then
    if m % 2 == 0 then 2 * (v - c) ≤ below else 2 * (v - c) < below
  else
    if m % 2 == 0 then 2 * (c - v) ≤ unit else 2 * (c - v) < unit

/-- Of the two multiples of `step` around `v`, the nearer one that reads as `v`. -/
def onGrid (v step : Nat) : Option Nat :=
  let low := v / step
  let candidates :=
    if 2 * (v % step) ≤ step then [low, low + 1] else [low + 1, low]
  candidates.find? fun c => readsAs v (c * step)

/-- The fewest decimal digits that read as `v`, with the power of ten they are multiplied by. -/
def shortestFrom (v : Nat) : Nat → Nat × Nat
  | 0 => (v, 0)
  | power + 1 =>
    match onGrid v (Nat.pow 10 (power + 1)) with
    | some c => (c, power + 1)
    | none => shortestFrom v power

def shortest (v : Nat) : Nat × Nat := shortestFrom v ((Decimal.ofNat v).length)

def dropZeros (s : Bytes) : Bytes := (s.reverse.dropWhile (· == 0x30)).reverse

/-- A whole number in the fewest digits: positional below a million, else with an exponent of at
least two digits. -/
def showNat (n : Nat) : Bytes :=
  let v := roundNat n
  if v < 1000000 then Decimal.ofNat v
  else
    let (c, power) := shortest v
    let digits := Decimal.ofNat c
    let exponent := digits.length - 1 + power
    let tail := dropZeros (digits.drop 1)
    digits.take 1 ++ (if tail.isEmpty then [] else 0x2E :: tail) ++ utf8 "e+" ++
      (if exponent < 10 then [0x30] else []) ++ Decimal.ofNat exponent

def showInt : Int → Bytes
  | .ofNat n => showNat n
  | .negSucc n => 0x2D :: showNat (n + 1)

end Binary64
end BoundedRecords
