import BoundedRecords.Proofs.Json.Completeness

/-! The reader accepts nothing but texts of the grammar. What was read so far is described for every state
of the reader; one byte keeps the description true, and at the end of a value it is the grammar. -/
namespace BoundedRecords.Json

/-! Numbers. -/

def AtLeastOneDigit (t : Bytes) : Prop := ∃ b ds, Bytes.isDigit b = true ∧ AllDigits ds ∧ t = b :: ds

theorem allDigits_snoc {ds : Bytes} {b : UInt8} (digits : AllDigits ds) (digit : Bytes.isDigit b = true) :
    AllDigits (ds ++ [b]) := by
  intro c found
  rcases List.mem_append.mp found with before | last
  · exact digits c before
  · rw [List.mem_singleton.mp last]
    exact digit

theorem atLeastOneDigit_snoc {t : Bytes} {b : UInt8} (digits : AtLeastOneDigit t) (digit : Bytes.isDigit b = true) :
    AtLeastOneDigit (t ++ [b]) := by
  obtain ⟨first, ds, head, rest, rfl⟩ := digits
  exact ⟨first, ds ++ [b], head, allDigits_snoc rest digit, rfl⟩

theorem atLeastOneDigit_singleton {b : UInt8} (digit : Bytes.isDigit b = true) : AtLeastOneDigit [b] :=
  ⟨b, [], digit, fun _ none => (nomatch none), rfl⟩

/-- The beginning of a number that has been read up to a part of it. -/
def NumberBegun (t : Bytes) : NumberPart → Prop
  | .sign => t = [0x2D]
  | .zero => ∃ sign, Minus sign ∧ t = sign ++ [0x30]
  | .whole => ∃ sign b ds, Minus sign ∧ Bytes.isDigit b = true ∧ b ≠ 0x30 ∧ AllDigits ds ∧ t = sign ++ b :: ds
  | .point => ∃ sign whole, Minus sign ∧ Whole whole ∧ t = sign ++ whole ++ [0x2E]
  | .fraction => ∃ sign whole ds, Minus sign ∧ Whole whole ∧ AtLeastOneDigit ds ∧ t = sign ++ whole ++ 0x2E :: ds
  | .exponent => ∃ sign whole fraction e, Minus sign ∧ Whole whole ∧ Fraction fraction ∧ ExponentMark e ∧
      t = sign ++ whole ++ fraction ++ [e]
  | .exponentSign => ∃ sign whole fraction e mark, Minus sign ∧ Whole whole ∧ Fraction fraction ∧ ExponentMark e ∧
      ExponentSign [mark] ∧ t = sign ++ whole ++ fraction ++ [e, mark]
  | .exponentDigits => ∃ sign whole fraction e mark ds, Minus sign ∧ Whole whole ∧ Fraction fraction ∧
      ExponentMark e ∧ ExponentSign mark ∧ AtLeastOneDigit ds ∧ t = sign ++ whole ++ fraction ++ e :: mark ++ ds

theorem numberText_of_begun {t : Bytes} {part : NumberPart} (begun : NumberBegun t part) (ends : part.ends = true) :
    NumberText t := by
  cases part with
  | sign => cases ends
  | zero =>
    obtain ⟨sign, minus, rfl⟩ := begun
    have number := NumberText.mk minus .zero .none .none
    simpa using number
  | whole =>
    obtain ⟨sign, b, ds, minus, digit, nonzero, digits, rfl⟩ := begun
    have number := NumberText.mk minus (.digits digit nonzero digits) .none .none
    simpa using number
  | point => cases ends
  | fraction =>
    obtain ⟨sign, whole, _, minus, number, ⟨b, ds, digit, digits, rfl⟩, rfl⟩ := begun
    have number := NumberText.mk minus number (.some digit digits) .none
    simpa using number
  | exponent => cases ends
  | exponentSign => cases ends
  | exponentDigits =>
    obtain ⟨sign, whole, fraction, e, mark, _, minus, number, frac, marked, signed, ⟨b, ds, digit, digits, rfl⟩, rfl⟩ :=
      begun
    have number := NumberText.mk minus number frac (.some marked signed digit digits)
    simpa using number

theorem exponent_begun {t : Bytes} {b : UInt8} {part : NumberPart} (begun : NumberBegun t part)
    (start : part = .zero ∨ part = .whole ∨ part = .fraction) (mark : ExponentMark b) :
    NumberBegun (t ++ [b]) .exponent := by
  rcases start with rfl | rfl | rfl
  · obtain ⟨sign, minus, rfl⟩ := begun
    exact ⟨sign, [0x30], [], b, minus, .zero, .none, mark, by simp⟩
  · obtain ⟨sign, c, ds, minus, digit, nonzero, digits, rfl⟩ := begun
    exact ⟨sign, c :: ds, [], b, minus, .digits digit nonzero digits, .none, mark, by simp⟩
  · obtain ⟨sign, whole, _, minus, number, ⟨c, ds, digit, digits, rfl⟩, rfl⟩ := begun
    exact ⟨sign, whole, 0x2E :: c :: ds, b, minus, number, .some digit digits, mark, by simp⟩

theorem exponentMark_of {b : UInt8} (mark : (b == 0x65 || b == 0x45) = true) : ExponentMark b := by
  simpa only [ExponentMark, Bool.or_eq_true, beq_iff_eq] using mark

theorem numberBegun_next {t : Bytes} {part next : NumberPart} {b : UInt8} (begun : NumberBegun t part)
    (moves : numberNext part b = some next) : NumberBegun (t ++ [b]) next := by
  cases part with
  | sign =>
    simp only [numberNext] at moves
    cases begun
    split at moves
    · rename_i zero
      cases moves
      exact ⟨[0x2D], .inr rfl, by rw [eq_of_beq zero]⟩
    · rename_i zero
      split at moves
      · rename_i digit
        cases moves
        refine ⟨[0x2D], b, [], .inr rfl, digit, fun same => zero (by rw [same]; rfl), List.forall_mem_nil _, rfl⟩
      · cases moves
  | zero =>
    simp only [numberNext] at moves
    split at moves
    · rename_i point
      cases moves
      obtain ⟨sign, minus, rfl⟩ := begun
      exact ⟨sign, [0x30], minus, .zero, by rw [eq_of_beq point]⟩
    · split at moves
      · rename_i mark
        cases moves
        exact exponent_begun begun (.inl rfl) (exponentMark_of mark)
      · cases moves
  | whole =>
    simp only [numberNext] at moves
    split at moves
    · rename_i digit
      cases moves
      obtain ⟨sign, c, ds, minus, first, nonzero, digits, rfl⟩ := begun
      exact ⟨sign, c, ds ++ [b], minus, first, nonzero, allDigits_snoc digits digit, by simp⟩
    · split at moves
      · rename_i point
        cases moves
        obtain ⟨sign, c, ds, minus, first, nonzero, digits, rfl⟩ := begun
        exact ⟨sign, c :: ds, minus, .digits first nonzero digits, by rw [eq_of_beq point]⟩
      · split at moves
        · rename_i mark
          cases moves
          exact exponent_begun begun (.inr (.inl rfl)) (exponentMark_of mark)
        · cases moves
  | point =>
    simp only [numberNext] at moves
    split at moves
    · rename_i digit
      cases moves
      obtain ⟨sign, whole, minus, number, rfl⟩ := begun
      exact ⟨sign, whole, [b], minus, number, atLeastOneDigit_singleton digit, by simp⟩
    · cases moves
  | fraction =>
    simp only [numberNext] at moves
    split at moves
    · rename_i digit
      cases moves
      obtain ⟨sign, whole, ds, minus, number, digits, rfl⟩ := begun
      exact ⟨sign, whole, ds ++ [b], minus, number, atLeastOneDigit_snoc digits digit, by simp⟩
    · split at moves
      · rename_i mark
        cases moves
        exact exponent_begun begun (.inr (.inr rfl)) (exponentMark_of mark)
      · cases moves
  | exponent =>
    simp only [numberNext] at moves
    obtain ⟨sign, whole, fraction, e, minus, number, frac, marked, rfl⟩ := begun
    split at moves
    · rename_i signed
      cases moves
      have mark : ExponentSign [b] := by
        simp only [Bool.or_eq_true, beq_iff_eq] at signed
        rcases signed with rfl | rfl
        · exact .inr (.inl rfl)
        · exact .inr (.inr rfl)
      exact ⟨sign, whole, fraction, e, b, minus, number, frac, marked, mark, by simp⟩
    · split at moves
      · rename_i digit
        cases moves
        exact ⟨sign, whole, fraction, e, [], [b], minus, number, frac, marked, .inl rfl,
          atLeastOneDigit_singleton digit, by simp⟩
      · cases moves
  | exponentSign =>
    simp only [numberNext] at moves
    obtain ⟨sign, whole, fraction, e, mark, minus, number, frac, marked, signed, rfl⟩ := begun
    split at moves
    · rename_i digit
      cases moves
      exact ⟨sign, whole, fraction, e, [mark], [b], minus, number, frac, marked, signed,
        atLeastOneDigit_singleton digit, by simp⟩
    · cases moves
  | exponentDigits =>
    simp only [numberNext] at moves
    obtain ⟨sign, whole, fraction, e, mark, ds, minus, number, frac, marked, signed, digits, rfl⟩ := begun
    split at moves
    · rename_i digit
      cases moves
      exact ⟨sign, whole, fraction, e, mark, ds ++ [b], minus, number, frac, marked, signed,
        atLeastOneDigit_snoc digits digit, by simp⟩
    · cases moves

/-! Brackets. The depth that is left inside of `frames` and one more bracket is what the grammar counts. -/

def depthLeft (frames : List Frame) : Nat := maxDepth - frames.length

/-- The text before a value inside the brackets of a stack. -/
inductive Context : List Frame → Bytes → Prop where
  | outside {w : Bytes} : White w → Context [] w
  | item {frames : List Frame} {items : List Json} {q u : Bytes} : Context frames q → frames.length < maxDepth →
      Spelled (depthLeft frames - 1) (.beforeItem items.reverse) u → Context (.array items :: frames) (q ++ 0x5B :: u)
  | member {frames : List Frame} {members : List (Bytes × Json)} {key q u raw w₁ w₂ : Bytes} : Context frames q →
      frames.length < maxDepth → Spelled (depthLeft frames - 1) (.beforeMember members.reverse) u →
      StringText raw key → White w₁ → White w₂ →
      Context (.object members key :: frames) (q ++ 0x7B :: u ++ 0x22 :: raw ++ 0x22 :: w₁ ++ 0x3A :: w₂)

/-- The text up to the end of an item or member, white space after it included. -/
inductive Held : List Frame → Bytes → Prop where
  | items {frames : List Frame} {items : List Json} {q t : Bytes} : Context frames q → frames.length < maxDepth →
      Spelled (depthLeft frames - 1) (.items items.reverse) t → Held (.array items :: frames) (q ++ 0x5B :: t)
  | members {frames : List Frame} {members : List (Bytes × Json)} {key q t : Bytes} : Context frames q →
      frames.length < maxDepth → Spelled (depthLeft frames - 1) (.members members.reverse) t →
      Held (.object members key :: frames) (q ++ 0x7B :: t)

/-- The text before a key. -/
inductive KeyDue : List Frame → Bytes → Prop where
  | mk {frames : List Frame} {members : List (Bytes × Json)} {key q u : Bytes} : Context frames q →
      frames.length < maxDepth → Spelled (depthLeft frames - 1) (.beforeMember members.reverse) u →
      KeyDue (.object members key :: frames) (q ++ 0x7B :: u)

def LexedPart (raw : Bytes) : EscapePart → Prop
  | .none => Lexed raw
  | .mark => ∃ before, Lexed before ∧ raw = before ++ [0x5C]
  | .hex left => ∃ before digits, Lexed before ∧ (∀ x ∈ digits, (Hex.value? x).isSome = true) ∧
      digits.length + left = 4 ∧ 1 ≤ left ∧ raw = before ++ 0x5C :: 0x75 :: digits

/-- What the reader stands for after the bytes `p`. -/
def Reads (p : Bytes) : Reader → Prop
  | ⟨stack, .value⟩ => Context stack p
  | ⟨stack, .firstItem⟩ => ∃ frames q w, stack = .array [] :: frames ∧ Context frames q ∧
      frames.length < maxDepth ∧ White w ∧ p = q ++ 0x5B :: w
  | ⟨stack, .firstKey⟩ => ∃ frames q w, stack = .object [] [] :: frames ∧ Context frames q ∧
      frames.length < maxDepth ∧ White w ∧ p = q ++ 0x7B :: w
  | ⟨stack, .nextKey⟩ => KeyDue stack p
  | ⟨stack, .string isKey raw escape⟩ => ∃ q, p = q ++ 0x22 :: raw.reverse ∧ LexedPart raw.reverse escape ∧
      if isKey then KeyDue stack q else Context stack q
  | ⟨stack, .colon⟩ => ∃ frames members key q raw w, stack = .object members key :: frames ∧ KeyDue stack q ∧
      StringText raw key ∧ White w ∧ p = q ++ 0x22 :: raw ++ 0x22 :: w
  | ⟨stack, .number raw part⟩ => ∃ q, Context stack q ∧ NumberBegun raw.reverse part ∧ p = q ++ raw.reverse
  | ⟨stack, .word left v⟩ => ∃ q t, Context stack q ∧ (∀ n, Spelled n (.value v) (t ++ left)) ∧ p = q ++ t
  | ⟨stack, .afterItem⟩ => Held stack p
  | ⟨stack, .complete v⟩ => stack = [] ∧ Begins v p

/-- What one byte may do to a reader that has read `p`. -/
def Sound (p : Bytes) (b : UInt8) : Progress → Prop
  | .next r => Reads (p ++ [b]) r
  | .closed v => Begins v (p ++ [b])
  | .before v => Begins v p
  | .wrong => True

/-! White space. -/

theorem white_snoc {w : Bytes} {b : UInt8} (white : White w) (space : isSpace b = true) : White (w ++ [b]) :=
  white_append white (white_singleton space)

theorem spelled_items_snoc {n : Nat} {vs : List Json} {t : Bytes} {b : UInt8} (spelled : Spelled n (.items vs) t)
    (space : isSpace b = true) : Spelled n (.items vs) (t ++ [b]) := by
  cases spelled with
  | item before value white =>
    rw [List.append_assoc]
    exact .item before value (white_snoc white space)

theorem spelled_members_snoc {n : Nat} {ms : List (Bytes × Json)} {t : Bytes} {b : UInt8}
    (spelled : Spelled n (.members ms) t) (space : isSpace b = true) : Spelled n (.members ms) (t ++ [b]) := by
  cases spelled with
  | member before string white₁ white₂ value white =>
    rw [List.append_assoc]
    exact .member before string white₁ white₂ value (white_snoc white space)

theorem spelled_beforeItem_snoc {n : Nat} {vs : List Json} {t : Bytes} {b : UInt8}
    (spelled : Spelled n (.beforeItem vs) t) (space : isSpace b = true) : Spelled n (.beforeItem vs) (t ++ [b]) := by
  cases spelled with
  | noItem white => exact .noItem (white_snoc white space)
  | nextItem items white =>
    rw [List.append_assoc]
    exact .nextItem items (white_snoc white space)

theorem spelled_beforeMember_snoc {n : Nat} {ms : List (Bytes × Json)} {t : Bytes} {b : UInt8}
    (spelled : Spelled n (.beforeMember ms) t) (space : isSpace b = true) :
    Spelled n (.beforeMember ms) (t ++ [b]) := by
  cases spelled with
  | noMember white => exact .noMember (white_snoc white space)
  | nextMember members white =>
    rw [List.append_assoc]
    exact .nextMember members (white_snoc white space)

theorem context_snoc {stack : List Frame} {p : Bytes} {b : UInt8} (context : Context stack p)
    (space : isSpace b = true) : Context stack (p ++ [b]) := by
  cases context with
  | outside white => exact .outside (white_snoc white space)
  | item outer room before =>
    rw [List.append_assoc]
    exact .item outer room (spelled_beforeItem_snoc before space)
  | member outer room before string white₁ white₂ =>
    rw [List.append_assoc]
    exact .member outer room before string white₁ (white_snoc white₂ space)

theorem held_snoc {stack : List Frame} {p : Bytes} {b : UInt8} (held : Held stack p) (space : isSpace b = true) :
    Held stack (p ++ [b]) := by
  cases held with
  | items outer room items =>
    rw [List.append_assoc]
    exact .items outer room (spelled_items_snoc items space)
  | members outer room members =>
    rw [List.append_assoc]
    exact .members outer room (spelled_members_snoc members space)

theorem keyDue_snoc {stack : List Frame} {p : Bytes} {b : UInt8} (due : KeyDue stack p) (space : isSpace b = true) :
    KeyDue stack (p ++ [b]) := by
  cases due with
  | mk outer room before =>
    rw [List.append_assoc]
    exact .mk outer room (spelled_beforeMember_snoc before space)

/-- Where white space is passed over it changes nothing. -/
theorem reads_space {r : Reader} {p : Bytes} {b : UInt8} (reads : Reads p r) (skips : r.mode.skips = true)
    (space : isSpace b = true) : Reads (p ++ [b]) r := by
  obtain ⟨stack, mode⟩ := r
  cases mode with
  | value => exact context_snoc reads space
  | firstItem =>
    obtain ⟨frames, q, w, same, outer, room, white, rfl⟩ := reads
    exact ⟨frames, q, w ++ [b], same, outer, room, white_snoc white space, List.append_assoc ..⟩
  | firstKey =>
    obtain ⟨frames, q, w, same, outer, room, white, rfl⟩ := reads
    exact ⟨frames, q, w ++ [b], same, outer, room, white_snoc white space, List.append_assoc ..⟩
  | nextKey => exact keyDue_snoc reads space
  | string => cases skips
  | colon =>
    obtain ⟨frames, members, key, q, raw, w, same, due, string, white, rfl⟩ := reads
    exact ⟨frames, members, key, q, raw, w ++ [b], same, due, string, white_snoc white space, List.append_assoc ..⟩
  | number => cases skips
  | word => cases skips
  | afterItem => exact held_snoc reads space
  | complete => cases skips

/-! One byte. -/

theorem depthLeft_inside {frames : List Frame} (frame : Frame) : depthLeft (frame :: frames) = depthLeft frames - 1 := by
  simp only [depthLeft, List.length_cons]
  omega

theorem depthLeft_outside {frames : List Frame} (room : frames.length < maxDepth) :
    depthLeft frames - 1 + 1 = depthLeft frames := by
  simp only [depthLeft]
  omega

theorem reads_place {stack : List Frame} {q t : Bytes} {v : Json} (context : Context stack q)
    (value : Spelled (depthLeft stack) (.value v) t) : Reads (q ++ t) (place stack v) := by
  cases context with
  | outside white => exact ⟨rfl, _, t, white, value, rfl⟩
  | @item frames items q u outer room before =>
    -- The frame keeps its items latest first, the grammar in the order of the text.
    rw [depthLeft_inside] at value
    have spelled := Spelled.item before value white_nil
    rw [List.append_nil, ← List.reverse_cons] at spelled
    have held := Held.items outer room spelled
    rwa [← List.cons_append, ← List.append_assoc] at held
  | @member frames members key q u raw w₁ w₂ outer room before string white₁ white₂ =>
    rw [depthLeft_inside] at value
    have spelled := Spelled.member before string white₁ white₂ value white_nil
    rw [List.append_nil, ← List.reverse_cons] at spelled
    have held := @Held.members _ _ [] _ _ outer room spelled
    simp only [List.append_assoc, List.cons_append] at held ⊢
    exact held

theorem close_sound {frames : List Frame} {p q t : Bytes} {b : UInt8} {v : Json} (outer : Context frames q)
    (value : Spelled (depthLeft frames) (.value v) t) (split : p ++ [b] = q ++ t) : Sound p b (close frames v) := by
  have reads := reads_place outer value
  rw [← split] at reads
  cases frames with
  | nil => exact reads.2
  | cons frame frames => exact reads

theorem afterItem_sound {stack : List Frame} {p : Bytes} (held : Held stack p) (b : UInt8) :
    Sound p b (afterItem stack b) := by
  cases held with
  | @items frames items q t outer room spelled =>
    simp only [afterItem]
    split
    · rename_i comma
      have due := Context.item outer room (.nextItem spelled white_nil)
      rw [eq_of_beq comma]
      simpa [Sound, Reads] using due
    · split
      · rename_i bracket
        have value := Spelled.array spelled
        rw [depthLeft_outside room] at value
        exact close_sound outer value (by rw [eq_of_beq bracket]; simp)
      · trivial
  | @members frames members key q t outer room spelled =>
    simp only [afterItem]
    split
    · rename_i comma
      have due := @KeyDue.mk _ _ key _ _ outer room (.nextMember spelled white_nil)
      rw [eq_of_beq comma]
      simpa [Sound, Reads] using due
    · split
      · rename_i bracket
        have value := Spelled.object spelled
        rw [depthLeft_outside room] at value
        exact close_sound outer value (by rw [eq_of_beq bracket]; simp)
      · trivial

theorem afterValue_sound {stack : List Frame} {p : Bytes} {v : Json} (reads : Reads p (place stack v)) (b : UInt8) :
    Sound p b (afterValue (place stack v) b) := by
  cases stack with
  | nil => exact reads.2
  | cons frame frames =>
    have held : Held (place (frame :: frames) v).stack p := by cases frame <;> exact reads
    have same : afterValue (place (frame :: frames) v) b =
        if isSpace b then .next (place (frame :: frames) v) else afterItem (place (frame :: frames) v).stack b := by
      cases frame <;> rfl
    rw [same]
    split
    · rename_i space
      exact reads_space reads (by cases frame <;> rfl) space
    · exact afterItem_sound held b

theorem begun_number {stack : List Frame} {p : Bytes} {b : UInt8} {part : NumberPart} (context : Context stack p)
    (begun : NumberBegun [b] part) : Sound p b (.next ⟨stack, .number [b] part⟩) :=
  ⟨p, context, begun, rfl⟩

theorem beginValue_sound {stack : List Frame} {p : Bytes} (context : Context stack p) (b : UInt8) :
    Sound p b (beginValue stack b) := by
  unfold beginValue
  dsimp only
  split
  · rename_i brace
    split
    · trivial
    · rename_i room
      exact ⟨stack, p, [], rfl, context, Nat.not_le.mp room, white_nil, by rw [eq_of_beq brace]⟩
  split
  · rename_i bracket
    split
    · trivial
    · rename_i room
      exact ⟨stack, p, [], rfl, context, Nat.not_le.mp room, white_nil, by rw [eq_of_beq bracket]⟩
  split
  · rename_i quote
    exact ⟨p, by rw [eq_of_beq quote]; rfl, .nil, context⟩
  split
  · rename_i minus
    rw [eq_of_beq minus]
    exact begun_number context rfl
  split
  · rename_i zero
    rw [eq_of_beq zero]
    exact begun_number context ⟨[], .inl rfl, rfl⟩
  split
  · rename_i zero digit
    exact begun_number context ⟨[], b, [], .inl rfl, digit, fun same => zero (by rw [same]; rfl),
      fun _ none => (nomatch none), rfl⟩
  split
  · rename_i letter
    exact ⟨p, [b], context, fun n => by rw [eq_of_beq letter]; exact .bool true, rfl⟩
  split
  · rename_i letter
    exact ⟨p, [b], context, fun n => by rw [eq_of_beq letter]; exact .bool false, rfl⟩
  split
  · rename_i letter
    exact ⟨p, [b], context, fun n => by rw [eq_of_beq letter]; exact .null, rfl⟩
  · trivial

theorem lexed_code {digits : Bytes} (hex : ∀ x ∈ digits, (Hex.value? x).isSome = true) (four : digits.length = 4) :
    Lexed (0x5C :: 0x75 :: digits) := by
  match digits, four with
  | [a, b, c, d], _ => exact .code (hex a (by simp)) (hex b (by simp)) (hex c (by simp)) (hex d (by simp)) .nil

theorem stringRead_sound {stack : List Frame} {isKey : Bool} {q raw : Bytes} (lexed : Lexed raw.reverse)
    (context : if isKey then KeyDue stack q else Context stack q) :
    Reads (q ++ 0x22 :: raw.reverse ++ [0x22]) (stringRead stack isKey raw) := by
  have string := stringText_unquote lexed
  cases isKey with
  | false =>
    have reads := reads_place context (.string string)
    simpa [stringRead] using reads
  | true =>
    obtain ⟨outer, room, before⟩ := context
    exact ⟨_, _, _, _, raw.reverse, [], rfl, .mk outer room before, string, white_nil, by simp⟩

theorem stringStep_sound {stack : List Frame} {isKey : Bool} {p raw : Bytes} {escape : EscapePart}
    (reads : Reads p ⟨stack, .string isKey raw escape⟩) (b : UInt8) :
    Sound p b (stringStep stack isKey raw escape b) := by
  obtain ⟨q, rfl, lexed, context⟩ := reads
  have grown : q ++ 0x22 :: raw.reverse ++ [b] = q ++ 0x22 :: (b :: raw).reverse := by simp
  cases escape with
  | none =>
    simp only [stringStep]
    split
    · rename_i quote
      rw [eq_of_beq quote]
      exact stringRead_sound lexed context
    split
    · rename_i mark
      exact ⟨q, grown, ⟨raw.reverse, lexed, by rw [eq_of_beq mark, List.reverse_cons]⟩, context⟩
    split
    · trivial
    · rename_i quote mark control
      have plain : Lexed [b] := .plain control (by simpa using quote) (by simpa using mark) .nil
      refine ⟨q, grown, ?_, context⟩
      rw [List.reverse_cons]
      exact lexed.append plain
  | mark =>
    obtain ⟨before, whole, split⟩ := lexed
    simp only [stringStep]
    split
    · rename_i letter
      refine ⟨q, grown, ⟨before, [], whole, List.forall_mem_nil _, rfl, by decide, ?_⟩, context⟩
      rw [eq_of_beq letter, List.reverse_cons, split]
      simp
    split
    · rename_i escape
      refine ⟨q, grown, ?_, context⟩
      have letter : Lexed [0x5C, b] := .letter escape .nil
      have text := whole.append letter
      rwa [LexedPart, List.reverse_cons, split, List.append_assoc]
    · trivial
  | hex left =>
    obtain ⟨before, digits, whole, hex, count, some, split⟩ := lexed
    simp only [stringStep]
    split
    · rename_i digit
      refine ⟨q, grown, ?_, context⟩
      have all : ∀ x ∈ digits ++ [b], (Hex.value? x).isSome = true := by
        intro x found
        rcases List.mem_append.mp found with early | last
        · exact hex x early
        · rw [List.mem_singleton.mp last]
          exact digit
      have text : (b :: raw).reverse = before ++ 0x5C :: 0x75 :: (digits ++ [b]) := by
        rw [List.reverse_cons, split]
        simp
      split
      · rename_i last
        have four : (digits ++ [b]).length = 4 := by
          rw [List.length_append, List.length_singleton]
          omega
        rw [LexedPart, text]
        exact whole.append (lexed_code all four)
      · exact ⟨before, digits ++ [b], whole, all, by rw [List.length_append, List.length_singleton]; omega, by omega, text⟩
    · trivial

/-- One byte keeps the description of what was read. -/
theorem step_reads {r : Reader} {p : Bytes} (reads : Reads p r) (b : UInt8) : Sound p b (step r b) := by
  obtain ⟨stack, mode⟩ := r
  cases mode with
  | value =>
    simp only [step]
    split
    · rename_i space
      exact reads_space reads rfl space
    · exact beginValue_sound reads b
  | firstItem =>
    simp only [step]
    split
    · rename_i space
      exact reads_space reads rfl space
    obtain ⟨frames, q, w, rfl, outer, room, white, rfl⟩ := reads
    split
    · rename_i bracket
      have value : Spelled (depthLeft frames) (.value (.array [])) (0x5B :: w ++ [0x5D]) := by
        rw [← depthLeft_outside room]
        exact .emptyArray white
      rw [eq_of_beq bracket]
      exact close_sound outer value (by simp)
    · exact beginValue_sound (.item outer room (.noItem white)) b
  | firstKey =>
    simp only [step]
    split
    · rename_i space
      exact reads_space reads rfl space
    obtain ⟨frames, q, w, rfl, outer, room, white, rfl⟩ := reads
    split
    · rename_i brace
      have value : Spelled (depthLeft frames) (.value (.object [])) (0x7B :: w ++ [0x7D]) := by
        rw [← depthLeft_outside room]
        exact .emptyObject white
      rw [eq_of_beq brace]
      exact close_sound outer value (by simp)
    split
    · rename_i quote
      rw [eq_of_beq quote]
      exact ⟨q ++ 0x7B :: w, rfl, .nil, .mk outer room (.noMember white)⟩
    · trivial
  | nextKey =>
    simp only [step]
    split
    · rename_i space
      exact reads_space reads rfl space
    split
    · rename_i quote
      rw [eq_of_beq quote]
      exact ⟨p, rfl, .nil, reads⟩
    · trivial
  | string isKey raw escape => exact stringStep_sound reads b
  | colon =>
    simp only [step]
    split
    · rename_i space
      exact reads_space reads rfl space
    split
    · rename_i colon
      obtain ⟨frames, members, key, q, raw, w, rfl, due, string, white, rfl⟩ := reads
      cases due with
      | mk outer room before =>
        have context := Context.member outer room before string white white_nil
        rw [eq_of_beq colon]
        simpa [Sound, Reads] using context
    · trivial
  | number raw part =>
    -- A number has no end of its own: the byte that cannot continue it is read again behind the value.
    obtain ⟨q, context, begun, rfl⟩ := reads
    simp only [step]
    split
    · rename_i next moves
      refine ⟨q, context, ?_, by simp⟩
      rw [List.reverse_cons]
      exact numberBegun_next begun moves
    · split
      · rename_i ends
        exact afterValue_sound (reads_place context (.number (numberText_of_begun begun ends))) b
      · trivial
  | word left v =>
    obtain ⟨q, t, context, spelled, rfl⟩ := reads
    simp only [step]
    split
    · rename_i c more
      split
      · trivial
      · rename_i same
        have byte : b = c := by simpa using same
        subst byte
        split
        · rename_i last
          rw [List.isEmpty_iff.mp last] at spelled
          rw [Sound, List.append_assoc]
          exact reads_place context (spelled _)
        · exact ⟨q, t ++ [b], context, fun n => by rw [List.append_assoc]; exact spelled n, by rw [List.append_assoc]⟩
    · trivial
  | afterItem =>
    simp only [step, afterValue]
    split
    · rename_i space
      exact reads_space reads rfl space
    · exact afterItem_sound reads b
  | complete v => exact reads.2

/-- A value that the reader finds is what the text begins with. -/
theorem run_reads {r : Reader} {p s : Bytes} (reads : Reads p r) :
    match run r s with
    | .value v rest => ∃ t, Begins v (p ++ t) ∧ s = t ++ rest
    | .short r' => Reads (p ++ s) r'
    | .wrong => True := by
  induction s generalizing r p with
  | nil =>
    simp only [run, List.append_nil]
    exact reads
  | cons b s ih =>
    have sound := step_reads reads b
    simp only [run]
    cases moved : step r b with
    | next r' =>
      rw [moved] at sound
      have later := ih sound
      simp only
      split
      · rename_i v rest found
        rw [found] at later
        obtain ⟨t, begins, rfl⟩ := later
        exact ⟨b :: t, by simpa using begins, rfl⟩
      · rename_i r'' short
        rw [short] at later
        simpa using later
      · trivial
    | closed v =>
      rw [moved] at sound
      exact ⟨[b], sound, rfl⟩
    | before v =>
      rw [moved] at sound
      exact ⟨[], by rw [List.append_nil]; exact sound, rfl⟩
    | wrong => trivial

end BoundedRecords.Json
