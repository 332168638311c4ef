import BoundedRecords.Json.Read
import BoundedRecords.Proofs.Text.Utf8

/-! The grammar of JSON texts, apart from any way to read them. A text is white space, one value and
white space; brackets are nested to a bounded depth. Strings may hold bytes that are no character, and a
surrogate may lack its partner: both stand for U+FFFD. -/
namespace BoundedRecords.Json

def White (w : Bytes) : Prop := ∀ b ∈ w, isSpace b = true

/-! Numbers. -/

def AllDigits (t : Bytes) : Prop := ∀ b ∈ t, Bytes.isDigit b = true

inductive Whole : Bytes → Prop where
  | zero : Whole [0x30]
  | digits {b : UInt8} {t : Bytes} : Bytes.isDigit b = true → b ≠ 0x30 → AllDigits t → Whole (b :: t)

inductive Fraction : Bytes → Prop where
  | none : Fraction []
  | some {b : UInt8} {t : Bytes} : Bytes.isDigit b = true → AllDigits t → Fraction (0x2E :: b :: t)

def ExponentMark (e : UInt8) : Prop := e = 0x65 ∨ e = 0x45

def ExponentSign (sign : Bytes) : Prop := sign = [] ∨ sign = [0x2B] ∨ sign = [0x2D]

inductive Exponent : Bytes → Prop where
  | none : Exponent []
  | some {e b : UInt8} {sign t : Bytes} : ExponentMark e → ExponentSign sign → Bytes.isDigit b = true →
      AllDigits t → Exponent (e :: sign ++ b :: t)

def Minus (sign : Bytes) : Prop := sign = [] ∨ sign = [0x2D]

inductive NumberText : Bytes → Prop where
  | mk {sign whole fraction exponent : Bytes} : Minus sign → Whole whole → Fraction fraction →
      Exponent exponent → NumberText (sign ++ whole ++ fraction ++ exponent)

/-! Strings. -/

/-- The text between two quotes, and the bytes it stands for. -/
inductive StringText : Bytes → Bytes → Prop where
  | nil : StringText [] []
  | char {c : Char} {raw text : Bytes} : 0x20 ≤ c.toNat → c.toNat ≠ 0x22 → c.toNat ≠ 0x5C →
      StringText raw text → StringText (Utf8.encode c ++ raw) (Utf8.encode c ++ text)
  /-- A byte that no character begins with. -/
  | stray {b : UInt8} {raw text : Bytes} : Utf8.head? (b :: raw) = none → StringText raw text →
      StringText (b :: raw) (Utf8.encode replacement ++ text)
  | letter {e : UInt8} {raw text : Bytes} : isEscapeLetter e = true → StringText raw text →
      StringText (0x5C :: e :: raw) (letterOf e :: text)
  | code {a b c d : UInt8} {n : Nat} {raw text : Bytes} : hexNumber? a b c d = some n →
      isSurrogate n = false → StringText raw text →
      StringText (0x5C :: 0x75 :: a :: b :: c :: d :: raw) (Utf8.encode (Char.ofNat n) ++ text)
  | pair {a b c d e f g h : UInt8} {high low : Nat} {ch : Char} {raw text : Bytes} :
      hexNumber? a b c d = some high → hexNumber? e f g h = some low → pair? high low = some ch →
      StringText raw text →
      StringText (0x5C :: 0x75 :: a :: b :: c :: d :: 0x5C :: 0x75 :: e :: f :: g :: h :: raw)
        (Utf8.encode ch ++ text)
  /-- A surrogate that its partner does not follow. -/
  | lone {a b c d : UInt8} {n : Nat} {raw text : Bytes} : hexNumber? a b c d = some n →
      isSurrogate n = true →
      (∀ e f g h rest, raw = 0x5C :: 0x75 :: e :: f :: g :: h :: rest →
        (hexNumber? e f g h).bind (pair? n) = none) →
      StringText raw text →
      StringText (0x5C :: 0x75 :: a :: b :: c :: d :: raw) (Utf8.encode replacement ++ text)

/-! Values. -/

/-- What a part of a text says: a value, the items or members between two brackets, at least one, or
those that stand before one more. -/
inductive Phrase where
  | value (v : Json)
  | items (vs : List Json)
  | beforeItem (vs : List Json)
  | members (ms : List (Bytes × Json))
  | beforeMember (ms : List (Bytes × Json))

/-- `Spelled n φ t`: the text `t` says `φ`, with brackets nested at most `n` deep. -/
inductive Spelled : Nat → Phrase → Bytes → Prop where
  | null {n : Nat} : Spelled n (.value .null) (utf8 "null")
  | bool {n : Nat} (b : Bool) : Spelled n (.value (.bool b)) (utf8 (if b then "true" else "false"))
  | number {n : Nat} {t : Bytes} : NumberText t → Spelled n (.value (.number t)) t
  | string {n : Nat} {raw text : Bytes} : StringText raw text →
      Spelled n (.value (.string text)) (0x22 :: raw ++ [0x22])
  | emptyArray {n : Nat} {w : Bytes} : White w → Spelled (n + 1) (.value (.array [])) (0x5B :: w ++ [0x5D])
  | array {n : Nat} {vs : List Json} {t : Bytes} : Spelled n (.items vs) t →
      Spelled (n + 1) (.value (.array vs)) (0x5B :: t ++ [0x5D])
  | emptyObject {n : Nat} {w : Bytes} : White w → Spelled (n + 1) (.value (.object [])) (0x7B :: w ++ [0x7D])
  | object {n : Nat} {ms : List (Bytes × Json)} {t : Bytes} : Spelled n (.members ms) t →
      Spelled (n + 1) (.value (.object ms)) (0x7B :: t ++ [0x7D])
  | noItem {n : Nat} {w : Bytes} : White w → Spelled n (.beforeItem []) w
  | nextItem {n : Nat} {vs : List Json} {t w : Bytes} : Spelled n (.items vs) t → White w →
      Spelled n (.beforeItem vs) (t ++ 0x2C :: w)
  | item {n : Nat} {vs : List Json} {v : Json} {u t w : Bytes} : Spelled n (.beforeItem vs) u →
      Spelled n (.value v) t → White w → Spelled n (.items (vs ++ [v])) (u ++ t ++ w)
  | noMember {n : Nat} {w : Bytes} : White w → Spelled n (.beforeMember []) w
  | nextMember {n : Nat} {ms : List (Bytes × Json)} {t w : Bytes} : Spelled n (.members ms) t → White w →
      Spelled n (.beforeMember ms) (t ++ 0x2C :: w)
  | member {n : Nat} {ms : List (Bytes × Json)} {key : Bytes} {v : Json} {u raw w₁ w₂ t w : Bytes} :
      Spelled n (.beforeMember ms) u → StringText raw key → White w₁ → White w₂ →
      Spelled n (.value v) t → White w →
      Spelled n (.members (ms ++ [(key, v)]))
        (u ++ 0x22 :: raw ++ 0x22 :: w₁ ++ 0x3A :: w₂ ++ t ++ w)

/-- White space and then one value. -/
def Begins (v : Json) (s : Bytes) : Prop :=
  ∃ w t, White w ∧ Spelled maxDepth (.value v) t ∧ s = w ++ t

/-- A whole JSON text. -/
def Text (v : Json) (s : Bytes) : Prop := ∃ t w, Begins v t ∧ White w ∧ s = t ++ w

theorem white_nil : White [] := fun _ none => nomatch none

theorem white_append {w w' : Bytes} (first : White w) (second : White w') : White (w ++ w') := by
  intro b found
  rcases List.mem_append.mp found with left | right
  · exact first b left
  · exact second b right

theorem white_singleton {b : UInt8} (space : isSpace b = true) : White [b] := by
  intro c found
  rw [List.mem_singleton.mp found]
  exact space

/-! Strings as they are met byte by byte: a plain byte, an escape of one letter or of four digits. -/

inductive Lexed : Bytes → Prop where
  | nil : Lexed []
  | plain {b : UInt8} {raw : Bytes} : ¬ b < 0x20 → b ≠ 0x22 → b ≠ 0x5C → Lexed raw → Lexed (b :: raw)
  | letter {e : UInt8} {raw : Bytes} : isEscapeLetter e = true → Lexed raw → Lexed (0x5C :: e :: raw)
  | code {a b c d : UInt8} {raw : Bytes} : (Hex.value? a).isSome = true → (Hex.value? b).isSome = true →
      (Hex.value? c).isSome = true → (Hex.value? d).isSome = true → Lexed raw →
      Lexed (0x5C :: 0x75 :: a :: b :: c :: d :: raw)

theorem Lexed.append {raw more : Bytes} (first : Lexed raw) (second : Lexed more) : Lexed (raw ++ more) := by
  induction first with
  | nil => exact second
  | plain low quote mark _ ih => exact .plain low quote mark ih
  | letter escape _ ih => exact .letter escape ih
  | code a b c d _ ih => exact .code a b c d ih

theorem Lexed.tail {b : UInt8} {raw : Bytes} (lexed : Lexed (b :: raw)) (mark : b ≠ 0x5C) : Lexed raw := by
  cases lexed with
  | plain _ _ _ rest => exact rest
  | letter _ _ => exact absurd rfl mark
  | code _ _ _ _ _ => exact absurd rfl mark

theorem Lexed.of_append {u raw : Bytes} (plain : ∀ b ∈ u, b ≠ 0x5C) (lexed : Lexed (u ++ raw)) : Lexed raw := by
  induction u with
  | nil => exact lexed
  | cons b u ih =>
    exact ih (fun c found => plain c (List.mem_cons_of_mem b found)) (lexed.tail (plain b List.mem_cons_self))

theorem hexNumber?_isSome {a b c d : UInt8} (first : (Hex.value? a).isSome = true)
    (second : (Hex.value? b).isSome = true) (third : (Hex.value? c).isSome = true)
    (fourth : (Hex.value? d).isSome = true) : ∃ n, hexNumber? a b c d = some n := by
  obtain ⟨w, hw⟩ := Option.isSome_iff_exists.mp first
  obtain ⟨x, hx⟩ := Option.isSome_iff_exists.mp second
  obtain ⟨y, hy⟩ := Option.isSome_iff_exists.mp third
  obtain ⟨z, hz⟩ := Option.isSome_iff_exists.mp fourth
  exact ⟨_, by simp only [hexNumber?, hw, hx, hy, hz, Option.bind_eq_bind, Option.bind_some]; rfl⟩

theorem isSome_of_hexNumber? {a b c d : UInt8} {n : Nat} (number : hexNumber? a b c d = some n) :
    (Hex.value? a).isSome = true ∧ (Hex.value? b).isSome = true ∧ (Hex.value? c).isSome = true ∧
      (Hex.value? d).isSome = true := by
  simp only [hexNumber?, Option.bind_eq_bind, Option.bind_eq_some_iff] at number
  obtain ⟨w, hw, x, hx, y, hy, z, hz, _⟩ := number
  simp only [hw, hx, hy, hz, Option.isSome_some, and_self]

end BoundedRecords.Json
