import BoundedRecords.Proofs.Json.Strings
import BoundedRecords.Proofs.Text.Decimal

/-! The reader accepts every text of the grammar. A value is read up to the byte after it, since only that
byte tells where a number ends; inside brackets there is always one. -/
namespace BoundedRecords.Json

theorem run_next {r r' : Reader} {b : UInt8} (moved : step r b = .next r') (s : Bytes) :
    run r (b :: s) = run r' s := by
  simp only [run, moved]

/-! White space. -/

def Mode.skips : Mode → Bool
  | .value | .firstItem | .firstKey | .nextKey | .colon | .afterItem => true
  | _ => false

theorem step_space {r : Reader} {b : UInt8} (skips : r.mode.skips = true) (space : isSpace b = true) :
    step r b = .next r := by
  obtain ⟨stack, mode⟩ := r
  cases mode <;> simp_all [Mode.skips, step, afterValue]

theorem run_white {r : Reader} {w : Bytes} (skips : r.mode.skips = true) (white : White w) (s : Bytes) :
    run r (w ++ s) = run r s := by
  induction w with
  | nil => rfl
  | cons b w ih =>
    rw [List.cons_append, run_next (step_space skips (white b List.mem_cons_self))]
    exact ih fun c found => white c (List.mem_cons_of_mem b found)

/-- A byte that may follow a value. -/
def Delimits (b : UInt8) : Prop := isSpace b = true ∨ b = 0x2C ∨ b = 0x5D ∨ b = 0x7D

theorem isSpace_iff (b : UInt8) : isSpace b = true ↔ b = 0x20 ∨ b = 0x09 ∨ b = 0x0A ∨ b = 0x0D := by
  simp only [isSpace, Bool.or_eq_true, beq_iff_eq, or_assoc]

theorem step_place (stack : List Frame) (v : Json) (b : UInt8) :
    step (place stack v) b = afterValue (place stack v) b := by
  cases stack with
  | nil => rfl
  | cons frame frames => cases frame <;> rfl

/-! Numbers. -/

theorem numberNext_delimiter {part : NumberPart} {b : UInt8} (delimits : Delimits b) : numberNext part b = none := by
  rw [Delimits, isSpace_iff] at delimits
  rcases delimits with (rfl | rfl | rfl | rfl) | rfl | rfl | rfl <;> cases part <;> rfl

theorem run_number_end (stack : List Frame) (raw : Bytes) {part : NumberPart} {b : UInt8}
    (ends : part.ends = true) (delimits : Delimits b) (s : Bytes) :
    run ⟨stack, .number raw part⟩ (b :: s) = run (place stack (.number raw.reverse)) (b :: s) := by
  have same : step ⟨stack, .number raw part⟩ b = step (place stack (.number raw.reverse)) b := by
    rw [step_place]
    simp only [step, numberNext_delimiter delimits, ends, if_true]
  simp only [run, same]

theorem run_digits (stack : List Frame) {raw ds : Bytes} {part : NumberPart}
    (loops : ∀ b, Bytes.isDigit b = true → numberNext part b = some part) (digits : AllDigits ds) (s : Bytes) :
    run ⟨stack, .number raw part⟩ (ds ++ s) = run ⟨stack, .number (ds.reverse ++ raw) part⟩ s := by
  induction ds generalizing raw with
  | nil => rfl
  | cons b ds ih =>
    have moved : step ⟨stack, .number raw part⟩ b = .next ⟨stack, .number (b :: raw) part⟩ := by
      simp only [step, loops b (digits b List.mem_cons_self)]
    rw [List.cons_append, run_next moved, ih fun c found => digits c (List.mem_cons_of_mem b found)]
    simp only [List.reverse_cons, List.append_assoc, List.singleton_append]

theorem run_number_next (stack : List Frame) (raw : Bytes) {part next : NumberPart} {b : UInt8}
    (moves : numberNext part b = some next) (s : Bytes) :
    run ⟨stack, .number raw part⟩ (b :: s) = run ⟨stack, .number (b :: raw) next⟩ s := by
  apply run_next
  simp only [step, moves]

theorem whole_loops (b : UInt8) (digit : Bytes.isDigit b = true) : numberNext .whole b = some .whole := by
  simp only [numberNext, digit, if_true]

theorem fraction_loops (b : UInt8) (digit : Bytes.isDigit b = true) :
    numberNext .fraction b = some .fraction := by
  simp only [numberNext, digit, if_true]

theorem exponent_loops (b : UInt8) (digit : Bytes.isDigit b = true) :
    numberNext .exponentDigits b = some .exponentDigits := by
  simp only [numberNext, digit, if_true]

theorem digit_cases {b : UInt8} (digit : Bytes.isDigit b = true) :
    b = 0x30 ∨ b = 0x31 ∨ b = 0x32 ∨ b = 0x33 ∨ b = 0x34 ∨ b = 0x35 ∨ b = 0x36 ∨ b = 0x37 ∨ b = 0x38 ∨ b = 0x39 := by
  rw [Bytes.isDigit_iff] at digit
  simp only [← UInt8.toNat_inj, UInt8.reduceToNat]
  omega

theorem step_first_digit (stack : List Frame) {b : UInt8} (digit : Bytes.isDigit b = true) (nonzero : b ≠ 0x30) :
    step ⟨stack, .value⟩ b = .next ⟨stack, .number [b] .whole⟩ := by
  rcases digit_cases digit with rfl | rfl | rfl | rfl | rfl | rfl | rfl | rfl | rfl | rfl <;>
    first | rfl | exact absurd rfl nonzero

theorem numberNext_first_digit {b : UInt8} (digit : Bytes.isDigit b = true) (nonzero : b ≠ 0x30) :
    numberNext .sign b = some .whole := by
  simp only [numberNext, beq_iff_eq, nonzero, digit, if_false, if_true]

theorem run_whole (stack : List Frame) {sign whole : Bytes} (minus : Minus sign) (number : Whole whole) :
    ∃ part, (part = .zero ∨ part = .whole) ∧
      ∀ s, run ⟨stack, .value⟩ (sign ++ whole ++ s) = run ⟨stack, .number (sign ++ whole).reverse part⟩ s := by
  cases number with
  | zero =>
    refine ⟨.zero, .inl rfl, fun s => ?_⟩
    rcases minus with rfl | rfl <;> rfl
  | @digits b t digit nonzero digits =>
    refine ⟨.whole, .inr rfl, fun s => ?_⟩
    rcases minus with rfl | rfl
    · simp only [List.nil_append, List.cons_append]
      rw [run_next (step_first_digit stack digit nonzero), run_digits stack whole_loops digits]
      simp only [List.reverse_cons]
    · simp only [List.nil_append, List.cons_append]
      have signed : step ⟨stack, .value⟩ 0x2D = .next ⟨stack, .number [0x2D] .sign⟩ := rfl
      rw [run_next signed, run_number_next stack _ (numberNext_first_digit digit nonzero),
        run_digits stack whole_loops digits]
      simp only [List.reverse_cons, List.append_assoc, List.singleton_append]

theorem run_fraction (stack : List Frame) {raw f : Bytes} {part : NumberPart} (start : part = .zero ∨ part = .whole)
    (fraction : Fraction f) :
    ∃ next, (next = .zero ∨ next = .whole ∨ next = .fraction) ∧
      ∀ s, run ⟨stack, .number raw part⟩ (f ++ s) = run ⟨stack, .number (f.reverse ++ raw) next⟩ s := by
  cases fraction with
  | none =>
    refine ⟨part, ?_, fun s => rfl⟩
    rcases start with rfl | rfl
    · exact .inl rfl
    · exact .inr (.inl rfl)
  | @some b t digit digits =>
    refine ⟨.fraction, .inr (.inr rfl), fun s => ?_⟩
    have point : numberNext part 0x2E = .some .point := by rcases start with rfl | rfl <;> rfl
    have first : numberNext .point b = .some .fraction := by simp only [numberNext, digit, if_true]
    simp only [List.cons_append]
    rw [run_number_next stack _ point, run_number_next stack _ first, run_digits stack fraction_loops digits]
    simp only [List.reverse_cons, List.append_assoc, List.cons_append, List.nil_append]

theorem run_exponent_sign (stack : List Frame) (raw : Bytes) {sign : Bytes} {b : UInt8} (signed : ExponentSign sign)
    (digit : Bytes.isDigit b = true) :
    ∃ part, numberNext part b = some .exponentDigits ∧
      ∀ s, run ⟨stack, .number raw .exponent⟩ (sign ++ s) = run ⟨stack, .number (sign.reverse ++ raw) part⟩ s := by
  have after : numberNext .exponentSign b = some .exponentDigits := by simp only [numberNext, digit, if_true]
  rcases signed with rfl | rfl | rfl
  · refine ⟨.exponent, ?_, fun s => rfl⟩
    rcases digit_cases digit with rfl | rfl | rfl | rfl | rfl | rfl | rfl | rfl | rfl | rfl <;> rfl
  · exact ⟨.exponentSign, after, fun s => rfl⟩
  · exact ⟨.exponentSign, after, fun s => rfl⟩

theorem run_exponent (stack : List Frame) {raw e : Bytes} {part : NumberPart}
    (start : part = .zero ∨ part = .whole ∨ part = .fraction) (exponent : Exponent e) :
    ∃ next : NumberPart, next.ends = true ∧
      ∀ s, run ⟨stack, .number raw part⟩ (e ++ s) = run ⟨stack, .number (e.reverse ++ raw) next⟩ s := by
  cases exponent with
  | none =>
    refine ⟨part, ?_, fun s => rfl⟩
    rcases start with rfl | rfl | rfl <;> rfl
  | @some e b sign t mark signed digit digits =>
    refine ⟨.exponentDigits, rfl, fun s => ?_⟩
    have marked : numberNext part e = .some .exponent := by
      rcases mark with rfl | rfl <;> rcases start with rfl | rfl | rfl <;> rfl
    obtain ⟨before, first, signRun⟩ := run_exponent_sign stack (e :: raw) signed digit
    simp only [List.cons_append, List.append_assoc]
    rw [run_number_next stack _ marked, signRun, run_number_next stack _ first,
      run_digits stack exponent_loops digits]
    simp only [List.reverse_cons, List.reverse_append, List.append_assoc, List.cons_append, List.nil_append]

theorem run_number (stack : List Frame) {t : Bytes} (number : NumberText t) {b : UInt8} (delimits : Delimits b)
    (s : Bytes) :
    run ⟨stack, .value⟩ (t ++ b :: s) = run (place stack (.number t)) (b :: s) := by
  obtain ⟨minus, whole, fraction, exponent⟩ := number
  obtain ⟨first, start, wholeRun⟩ := run_whole stack minus whole
  obtain ⟨second, middle, fractionRun⟩ := run_fraction stack start fraction
  obtain ⟨last, ends, exponentRun⟩ := run_exponent stack middle exponent
  rw [List.append_assoc, List.append_assoc, wholeRun, fractionRun, exponentRun, run_number_end stack _ ends delimits]
  simp only [List.reverse_append, List.reverse_reverse, List.append_assoc]

/-! Strings and words. -/

theorem run_lexed (stack : List Frame) (isKey : Bool) {acc raw : Bytes} (lexed : Lexed raw) (s : Bytes) :
    run ⟨stack, .string isKey acc .none⟩ (raw ++ s) = run ⟨stack, .string isKey (raw.reverse ++ acc) .none⟩ s := by
  induction lexed generalizing acc with
  | nil => rfl
  | @plain b raw low quote mark _ ih =>
    have moved : step ⟨stack, .string isKey acc .none⟩ b = .next ⟨stack, .string isKey (b :: acc) .none⟩ := by
      simp only [step, stringStep, beq_iff_eq, quote, mark, low, if_false]
    rw [List.cons_append, run_next moved, ih]
    simp only [List.reverse_cons, List.append_assoc, List.singleton_append]
  | @letter e raw escape _ ih =>
    have apart : e ≠ 0x75 := by
      rintro rfl
      exact absurd escape (by decide)
    have marked : step ⟨stack, .string isKey acc .none⟩ 0x5C = .next ⟨stack, .string isKey (0x5C :: acc) .mark⟩ := rfl
    have moved : step ⟨stack, .string isKey (0x5C :: acc) .mark⟩ e =
        .next ⟨stack, .string isKey (e :: 0x5C :: acc) .none⟩ := by
      simp only [step, stringStep, beq_iff_eq, apart, escape, if_false, if_true]
    rw [List.cons_append, List.cons_append, run_next marked, run_next moved, ih]
    simp only [List.reverse_cons, List.append_assoc, List.cons_append, List.nil_append]
  | @code a b c d raw ha hb hc hd _ ih =>
    have marked : step ⟨stack, .string isKey acc .none⟩ 0x5C = .next ⟨stack, .string isKey (0x5C :: acc) .mark⟩ := rfl
    have begun : step ⟨stack, .string isKey (0x5C :: acc) .mark⟩ 0x75 =
        .next ⟨stack, .string isKey (0x75 :: 0x5C :: acc) (.hex 4)⟩ := rfl
    have digit : ∀ (x : UInt8) (sofar : Bytes) (left : Nat), (Hex.value? x).isSome = true →
        step ⟨stack, .string isKey sofar (.hex (left + 2))⟩ x =
          .next ⟨stack, .string isKey (x :: sofar) (.hex (left + 1))⟩ := by
      intro x sofar left hex
      simp only [step, stringStep, hex, if_true]
      rfl
    have last : ∀ sofar : Bytes, step ⟨stack, .string isKey sofar (.hex 1)⟩ d =
        .next ⟨stack, .string isKey (d :: sofar) .none⟩ := by
      intro sofar
      simp only [step, stringStep, hd, if_true]
      rfl
    simp only [List.cons_append]
    rw [run_next marked, run_next begun, run_next (digit a _ 2 ha), run_next (digit b _ 1 hb),
      run_next (digit c _ 0 hc), run_next (last _), ih]
    simp only [List.reverse_cons, List.append_assoc, List.cons_append, List.nil_append]

theorem run_quoted (stack : List Frame) (isKey : Bool) {raw text : Bytes} (string : StringText raw text) (s : Bytes) :
    run ⟨stack, .string isKey [] .none⟩ (raw ++ 0x22 :: s) = run (stringRead stack isKey raw.reverse) s := by
  have closed : step ⟨stack, .string isKey raw.reverse .none⟩ 0x22 = .next (stringRead stack isKey raw.reverse) := rfl
  rw [run_lexed stack isKey (lexed_of_stringText string), List.append_nil, run_next closed]

theorem run_string (stack : List Frame) {raw text : Bytes} (string : StringText raw text) (s : Bytes) :
    run ⟨stack, .value⟩ (0x22 :: raw ++ 0x22 :: s) = run (place stack (.string text)) s := by
  have begun : step ⟨stack, .value⟩ 0x22 = .next ⟨stack, .string false [] .none⟩ := rfl
  have read : stringRead stack false raw.reverse = place stack (.string text) := by
    simp only [stringRead, List.reverse_reverse, unquote_stringText string, Bool.false_eq_true, if_false]
  rw [List.cons_append, run_next begun, run_quoted stack false string, read]

theorem run_null (stack : List Frame) (s : Bytes) :
    run ⟨stack, .value⟩ (utf8 "null" ++ s) = run (place stack .null) s := rfl

theorem run_bool (stack : List Frame) (b : Bool) (s : Bytes) :
    run ⟨stack, .value⟩ (utf8 (if b then "true" else "false") ++ s) = run (place stack (.bool b)) s := by
  cases b <;> rfl

/-! Brackets. -/

theorem spelled_value_head {n : Nat} {v : Json} {t : Bytes} (spelled : Spelled n (.value v) t) :
    ∃ b rest, t = b :: rest ∧ isSpace b = false ∧ b ≠ 0x5D := by
  cases spelled with
  | null => exact ⟨0x6E, _, rfl, rfl, by decide⟩
  | bool b => cases b <;> exact ⟨_, _, rfl, rfl, by decide⟩
  | number number =>
    obtain ⟨minus, whole, _, _⟩ := number
    rcases minus with rfl | rfl
    · cases whole with
      | zero => exact ⟨0x30, _, rfl, rfl, by decide⟩
      | @digits b t digit _ _ =>
        refine ⟨b, _, rfl, ?_⟩
        rcases digit_cases digit with rfl | rfl | rfl | rfl | rfl | rfl | rfl | rfl | rfl | rfl <;> decide
    · exact ⟨0x2D, _, rfl, rfl, by decide⟩
  | string _ => exact ⟨0x22, _, rfl, rfl, by decide⟩
  | emptyArray _ => exact ⟨0x5B, _, rfl, rfl, by decide⟩
  | array _ => exact ⟨0x5B, _, rfl, rfl, by decide⟩
  | emptyObject _ => exact ⟨0x7B, _, rfl, rfl, by decide⟩
  | object _ => exact ⟨0x7B, _, rfl, rfl, by decide⟩

theorem run_close {frames : List Frame} {r : Reader} {b : UInt8} {v : Json} (closes : step r b = close frames v)
    (c : UInt8) (s : Bytes) : run r (b :: c :: s) = run (place frames v) (c :: s) := by
  cases frames with
  | nil => simp only [run, closes, close]; rfl
  | cons frame frames => exact run_next closes _

theorem step_enter {stack : List Frame} {b : UInt8} {frame : Frame} {mode : Mode} (room : stack.length < maxDepth)
    (bracket : (b = 0x5B ∧ frame = .array [] ∧ mode = .firstItem) ∨
      (b = 0x7B ∧ frame = .object [] [] ∧ mode = .firstKey)) :
    step ⟨stack, .value⟩ b = .next ⟨frame :: stack, mode⟩ := by
  have shallow : ¬ maxDepth ≤ stack.length := Nat.not_le.mpr room
  rcases bracket with ⟨rfl, rfl, rfl⟩ | ⟨rfl, rfl, rfl⟩
  · have same : step ⟨stack, .value⟩ 0x5B =
        if maxDepth ≤ stack.length then .wrong else .next ⟨.array [] :: stack, .firstItem⟩ := rfl
    rw [same, if_neg shallow]
  · have same : step ⟨stack, .value⟩ 0x7B =
        if maxDepth ≤ stack.length then .wrong else .next ⟨.object [] [] :: stack, .firstKey⟩ := rfl
    rw [same, if_neg shallow]

/-- What the reader does on a part of a text, inside the brackets of `stack`, with `b` after the part. -/
def Accepts (n : Nat) (t : Bytes) : Phrase → Prop
  | .value v => ∀ (stack : List Frame) (b : UInt8) (s : Bytes), stack.length + n ≤ maxDepth → Delimits b →
      run ⟨stack, .value⟩ (t ++ b :: s) = run (place stack v) (b :: s)
  | .items vs => ∀ (frames : List Frame) (b : UInt8) (s : Bytes), frames.length + 1 + n ≤ maxDepth →
      b = 0x2C ∨ b = 0x5D →
      run ⟨.array [] :: frames, .firstItem⟩ (t ++ b :: s) = run ⟨.array vs.reverse :: frames, .afterItem⟩ (b :: s)
  | .beforeItem vs => ∀ (frames : List Frame) (b : UInt8) (s : Bytes), frames.length + 1 + n ≤ maxDepth →
      isSpace b = false → b ≠ 0x5D →
      run ⟨.array [] :: frames, .firstItem⟩ (t ++ b :: s) = run ⟨.array vs.reverse :: frames, .value⟩ (b :: s)
  | .members ms => ∀ (frames : List Frame) (b : UInt8) (s : Bytes), frames.length + 1 + n ≤ maxDepth →
      b = 0x2C ∨ b = 0x7D →
      run ⟨.object [] [] :: frames, .firstKey⟩ (t ++ b :: s) =
        run ⟨.object ms.reverse [] :: frames, .afterItem⟩ (b :: s)
  | .beforeMember ms => ∀ (frames : List Frame) (s : Bytes), frames.length + 1 + n ≤ maxDepth →
      run ⟨.object [] [] :: frames, .firstKey⟩ (t ++ 0x22 :: s) =
        run ⟨.object ms.reverse [] :: frames, .string true [] .none⟩ s

theorem delimits_head {w : Bytes} (white : White w) {b : UInt8} (delimits : Delimits b) (s : Bytes) :
    ∃ c rest, w ++ b :: s = c :: rest ∧ Delimits c := by
  cases w with
  | nil => exact ⟨b, s, rfl, delimits⟩
  | cons c w => exact ⟨c, w ++ b :: s, rfl, .inl (white c List.mem_cons_self)⟩

/-- A value with white space after it, inside a bracket. -/
theorem run_item {n : Nat} {v : Json} {t w : Bytes} (accepts : Accepts n t (.value v)) (white : White w)
    {frame : Frame} {frames : List Frame} {b : UInt8} (room : frames.length + 1 + n ≤ maxDepth)
    (delimits : Delimits b) (s : Bytes) :
    run ⟨frame :: frames, .value⟩ (t ++ w ++ b :: s) = run (place (frame :: frames) v) (b :: s) := by
  obtain ⟨c, rest, split, follows⟩ := delimits_head white delimits s
  have skips : (place (frame :: frames) v).mode.skips = true := by cases frame <;> rfl
  rw [List.append_assoc, split, accepts (frame :: frames) c rest room follows, ← split, run_white skips white]

theorem spelled_accepts {n : Nat} {φ : Phrase} {t : Bytes} (spelled : Spelled n φ t) : Accepts n t φ := by
  induction spelled with
  | null => exact fun stack b s _ _ => run_null stack (b :: s)
  | bool v => exact fun stack b s _ _ => run_bool stack v (b :: s)
  | number number => exact fun stack b s _ delimits => run_number stack number delimits s
  | string string =>
    intro stack b s _ _
    rw [← run_string stack string, List.append_assoc]
    rfl
  | @emptyArray n w white =>
    intro stack b s room _
    have closes : step ⟨.array [] :: stack, .firstItem⟩ 0x5D = close stack (.array []) := rfl
    simp only [List.cons_append, List.append_assoc, List.nil_append]
    rw [run_next (step_enter (by omega) (.inl ⟨rfl, rfl, rfl⟩)), run_white rfl white, run_close closes]
  | @array n vs t _ ih =>
    intro stack b s room _
    have closes : step ⟨.array vs.reverse :: stack, .afterItem⟩ 0x5D = close stack (.array vs) := by
      have same : step ⟨.array vs.reverse :: stack, .afterItem⟩ 0x5D = close stack (.array vs.reverse.reverse) := rfl
      rw [same, List.reverse_reverse]
    simp only [List.cons_append, List.append_assoc, List.nil_append]
    rw [run_next (step_enter (by omega) (.inl ⟨rfl, rfl, rfl⟩)), ih stack 0x5D (b :: s) (by omega) (.inr rfl),
      run_close closes]
  | @emptyObject n w white =>
    intro stack b s room _
    have closes : step ⟨.object [] [] :: stack, .firstKey⟩ 0x7D = close stack (.object []) := rfl
    simp only [List.cons_append, List.append_assoc, List.nil_append]
    rw [run_next (step_enter (by omega) (.inr ⟨rfl, rfl, rfl⟩)), run_white rfl white, run_close closes]
  | @object n ms t _ ih =>
    intro stack b s room _
    have closes : step ⟨.object ms.reverse [] :: stack, .afterItem⟩ 0x7D = close stack (.object ms) := by
      have same : step ⟨.object ms.reverse [] :: stack, .afterItem⟩ 0x7D = close stack (.object ms.reverse.reverse) := rfl
      rw [same, List.reverse_reverse]
    simp only [List.cons_append, List.append_assoc, List.nil_append]
    rw [run_next (step_enter (by omega) (.inr ⟨rfl, rfl, rfl⟩)), ih stack 0x7D (b :: s) (by omega) (.inr rfl),
      run_close closes]
  | noItem white =>
    intro frames b s _ space bracket
    have same : step ⟨.array [] :: frames, .firstItem⟩ b = step ⟨.array [] :: frames, .value⟩ b := by
      simp only [step, space, beq_iff_eq, bracket, Bool.false_eq_true, if_false]
    rw [run_white rfl white]
    simp only [run, same, List.reverse_nil]
  | nextItem _ white ih =>
    intro frames b s room _ _
    have comma : ∀ items, step ⟨.array items :: frames, .afterItem⟩ 0x2C = .next ⟨.array items :: frames, .value⟩ :=
      fun _ => rfl
    rw [List.append_assoc, List.cons_append, ih frames 0x2C _ room (.inl rfl), run_next (comma _), run_white rfl white]
  | @item n vs v u t w _ value white before ih =>
    -- The first byte of the value shows the reader that the array does not end here.
    intro frames b s room follows
    obtain ⟨c, rest, split, space, bracket⟩ := spelled_value_head value
    have delimits : Delimits b := by
      rcases follows with rfl | rfl
      · exact .inr (.inl rfl)
      · exact .inr (.inr (.inl rfl))
    have begun := before frames c (rest ++ w ++ b :: s) room space bracket
    rw [← List.cons_append, ← List.cons_append, ← split] at begun
    rw [List.append_assoc, List.append_assoc, ← List.append_assoc t, begun, run_item ih white room delimits]
    simp only [place, List.reverse_append, List.reverse_cons, List.reverse_nil, List.nil_append, List.singleton_append]
  | noMember white =>
    intro frames s _
    have begun : step ⟨.object [] [] :: frames, .firstKey⟩ 0x22 =
        .next ⟨.object [] [] :: frames, .string true [] .none⟩ := rfl
    rw [run_white rfl white, run_next begun, List.reverse_nil]
  | nextMember _ white ih =>
    intro frames s room
    have comma : ∀ members, step ⟨.object members [] :: frames, .afterItem⟩ 0x2C =
        .next ⟨.object members [] :: frames, .nextKey⟩ := fun _ => rfl
    have begun : ∀ members, step ⟨.object members [] :: frames, .nextKey⟩ 0x22 =
        .next ⟨.object members [] :: frames, .string true [] .none⟩ := fun _ => rfl
    rw [List.append_assoc, List.cons_append, ih frames 0x2C _ room (.inl rfl), run_next (comma _),
      run_white rfl white, run_next (begun _)]
  | @member n ms key v u raw w₁ w₂ t w _ string white₁ white₂ _ white before ih =>
    intro frames b s room follows
    have delimits : Delimits b := by
      rcases follows with rfl | rfl
      · exact .inr (.inl rfl)
      · exact .inr (.inr (.inr rfl))
    have named : stringRead (.object ms.reverse [] :: frames) true raw.reverse =
        ⟨.object ms.reverse key :: frames, .colon⟩ := by
      simp only [stringRead, List.reverse_reverse, unquote_stringText string, if_true]
    have colon : step ⟨.object ms.reverse key :: frames, .colon⟩ 0x3A =
        .next ⟨.object ms.reverse key :: frames, .value⟩ := rfl
    have begun := before frames (raw ++ 0x22 :: (w₁ ++ 0x3A :: (w₂ ++ (t ++ w ++ b :: s)))) room
    rw [run_quoted _ true string, named, run_white rfl white₁, run_next colon, run_white rfl white₂,
      run_item ih white room delimits] at begun
    simp only [List.append_assoc, List.cons_append] at begun ⊢
    rw [begun]
    simp only [place, List.reverse_append, List.reverse_cons, List.reverse_nil, List.nil_append, List.singleton_append]

end BoundedRecords.Json
