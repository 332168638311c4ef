import BoundedRecords.Proofs.Json.Grammar

/-! Strings read back. The reader first finds the end of a string byte by byte and resolves its escapes
afterwards; the grammar says both at once. -/
namespace BoundedRecords.Json

/-! Resolving escapes. -/

theorem unquoteFirst_shorter {s ch rest : Bytes} (read : unquoteFirst s = some (ch, rest)) :
    rest.length < s.length := by
  unfold unquoteFirst at read
  split at read
  · cases read
  · dsimp only at read
    split at read
    · split at read
      · rename_i found
        simp only [Option.some.injEq, Prod.mk.injEq] at read
        obtain ⟨_, rfl⟩ := read
        split at found
        · simp only [Option.map_eq_some_iff] at found
          obtain ⟨c, _, same⟩ := found
          simp only [Prod.mk.injEq] at same
          rw [← same.2]
          simp only [List.length_cons]
          omega
        · cases found
      · simp only [Option.some.injEq, Prod.mk.injEq] at read
        rw [← read.2]
        simp only [List.length_cons]
        omega
    · simp only [Option.some.injEq, Prod.mk.injEq] at read
      rw [← read.2]
      simp only [List.length_cons]
      omega
  · simp only [Option.some.injEq, Prod.mk.injEq] at read
    rw [← read.2]
    simp only [List.length_cons]
    omega
  · split at read
    · rename_i found
      simp only [Option.some.injEq, Prod.mk.injEq] at read
      rw [← read.2]
      exact Utf8.length_lt_of_head? found
    · simp only [Option.some.injEq, Prod.mk.injEq] at read
      rw [← read.2]
      simp only [List.length_cons]
      omega

theorem unquoteOnto_append (fuel : Nat) (done s : Bytes) :
    unquoteOnto fuel done s = unquoteOnto fuel [] s ++ done := by
  induction fuel generalizing done s with
  | zero => rfl
  | succ fuel ih =>
    simp only [unquoteOnto]
    split
    · rfl
    · rename_i ch rest _
      rw [ih (ch.reverse ++ done), ih (ch.reverse ++ []), List.append_nil, List.append_assoc]

theorem unquoteOnto_fuel {fuel fuel' : Nat} {s : Bytes} (enough : s.length ≤ fuel) (enough' : s.length ≤ fuel')
    (done : Bytes) : unquoteOnto fuel done s = unquoteOnto fuel' done s := by
  induction fuel generalizing fuel' s done with
  | zero =>
    rw [List.length_eq_zero_iff.mp (Nat.le_zero.mp enough)]
    cases fuel' <;> rfl
  | succ fuel ih =>
    cases fuel' with
    | zero =>
      rw [List.length_eq_zero_iff.mp (Nat.le_zero.mp enough')]
      rfl
    | succ fuel' =>
      simp only [unquoteOnto]
      split
      · rfl
      · rename_i ch rest read
        have shorter := unquoteFirst_shorter read
        exact ih (by omega) (by omega) _

theorem unquote_of_first {s ch rest : Bytes} (read : unquoteFirst s = some (ch, rest)) :
    unquote s = ch ++ unquote rest := by
  have shorter := unquoteFirst_shorter read
  obtain ⟨fuel, size⟩ : ∃ fuel, s.length = fuel + 1 := ⟨s.length - 1, by omega⟩
  simp only [unquote, size, unquoteOnto, read]
  rw [unquoteOnto_append, unquoteOnto_fuel (by omega) (Nat.le_refl rest.length)]
  simp

theorem unquoteFirst_plain {b : UInt8} (rest : Bytes) (mark : b ≠ 0x5C) :
    unquoteFirst (b :: rest) =
      match Utf8.head? (b :: rest) with
      | some (ch, after) => some (Utf8.encode ch, after)
      | none => some (Utf8.encode replacement, rest) := by
  unfold unquoteFirst
  split
  · rename_i empty
    cases empty
  · rename_i same
    exact absurd (List.cons.inj same).1 mark
  · rename_i same
    exact absurd (List.cons.inj same).1 mark
  · rename_i same
    cases same
    rfl

theorem unquoteFirst_letter {e : UInt8} (rest : Bytes) (letter : e ≠ 0x75) :
    unquoteFirst (0x5C :: e :: rest) = some ([letterOf e], rest) := by
  unfold unquoteFirst
  split
  · rename_i empty
    cases empty
  · rename_i same
    exact absurd (List.cons.inj (List.cons.inj same).2).1 letter
  · rename_i same
    cases same
    rfl
  · rename_i apart same
    cases same
    exact (apart e rest rfl rfl).elim

/-- The character that a surrogate gives together with the escape after it. -/
def partner? (high : Nat) (rest : Bytes) : Option (Char × Bytes) :=
  match rest with
  | 0x5C :: 0x75 :: e :: f :: g :: h :: after =>
    ((hexNumber? e f g h).bind (pair? high)).map fun ch => (ch, after)
  | _ => none

theorem unquoteFirst_code {a b c d : UInt8} {n : Nat} (rest : Bytes) (number : hexNumber? a b c d = some n) :
    unquoteFirst (0x5C :: 0x75 :: a :: b :: c :: d :: rest) =
      if isSurrogate n then
        match partner? n rest with
        | some (ch, after) => some (Utf8.encode ch, after)
        | none => some (Utf8.encode replacement, rest)
      else some (Utf8.encode (Char.ofNat n), rest) := by
  simp only [unquoteFirst, number, Option.getD_some]
  rfl

/-! Bytes and characters. -/

theorem partner?_eq_none_iff (high : Nat) (raw : Bytes) :
    partner? high raw = none ↔
      ∀ e f g h rest, raw = 0x5C :: 0x75 :: e :: f :: g :: h :: rest →
        (hexNumber? e f g h).bind (pair? high) = none := by
  constructor
  · rintro none e f g h rest rfl
    simpa [partner?] using none
  · intro apart
    unfold partner?
    split
    · rw [apart _ _ _ _ _ rfl]
      rfl
    · rfl

theorem eq_of_partner? {high : Nat} {raw : Bytes} {ch : Char} {after : Bytes}
    (found : partner? high raw = some (ch, after)) :
    ∃ e f g h low, raw = 0x5C :: 0x75 :: e :: f :: g :: h :: after ∧ hexNumber? e f g h = some low ∧
      pair? high low = some ch := by
  unfold partner? at found
  split at found
  · rename_i e f g h rest
    simp only [Option.map_eq_some_iff, Option.bind_eq_some_iff, Prod.mk.injEq] at found
    obtain ⟨c, ⟨low, number, joined⟩, rfl, rfl⟩ := found
    exact ⟨e, f, g, h, low, rfl, number, joined⟩
  · cases found

theorem isSurrogate_of_pair? {high low : Nat} {ch : Char} (joined : pair? high low = some ch) :
    isSurrogate high = true := by
  unfold pair? at joined
  split at joined
  · rename_i range
    simp only [Bool.and_eq_true, decide_eq_true_eq] at range
    simp only [isSurrogate, Bool.and_eq_true, decide_eq_true_eq]
    omega
  · cases joined

theorem plain_of_lexed {b : UInt8} {raw : Bytes} (lexed : Lexed (b :: raw)) (mark : b ≠ 0x5C) :
    0x20 ≤ b.toNat ∧ b ≠ 0x22 := by
  cases lexed with
  | plain low quote _ _ =>
    rw [UInt8.lt_iff_toNat_lt] at low
    exact ⟨Nat.not_lt.mp low, quote⟩
  | letter _ _ => exact absurd rfl mark
  | code _ _ _ _ _ => exact absurd rfl mark

theorem not_control {b : UInt8} (printable : 32 ≤ b.toNat) : ¬ b < 0x20 := by
  rw [UInt8.lt_iff_toNat_lt]
  exact Nat.not_lt.mpr printable

theorem ne_of_high {b : UInt8} (high : 0x80 ≤ b.toNat) : b ≠ 0x22 ∧ b ≠ 0x5C := by
  constructor <;> rintro rfl <;> exact absurd high (by decide)

/-- A character at the head of a string that goes on well. -/
theorem char_of_lexed {c : Char} {raw : Bytes} (lexed : Lexed (Utf8.encode c ++ raw)) (mark : c.toNat ≠ 0x5C) :
    0x20 ≤ c.toNat ∧ c.toNat ≠ 0x22 ∧ Lexed raw := by
  rcases Nat.lt_or_ge c.toNat 0x80 with one | high
  · rw [Utf8.encode_one one] at lexed
    have value : (UInt8.ofNat c.toNat).toNat = c.toNat := Utf8.toNat_ofNat (by omega)
    have apart : UInt8.ofNat c.toNat ≠ 0x5C := by
      intro same
      rw [same] at value
      exact mark value.symm
    obtain ⟨low, quote⟩ := plain_of_lexed lexed apart
    rw [value] at low
    refine ⟨low, fun same => quote ?_, lexed.tail apart⟩
    rw [same]
    rfl
  · have bytes : ∀ b ∈ Utf8.encode c, b ≠ 0x5C := fun b found => (ne_of_high (Utf8.encode_high high found)).2
    exact ⟨by omega, by omega, lexed.of_append bytes⟩

theorem toNat_of_encode {c : Char} {b : UInt8} {rest : Bytes} (split : Utf8.encode c = b :: rest)
    (low : b.toNat < 0x80) : c.toNat = b.toNat := by
  rcases Nat.lt_or_ge c.toNat 0x80 with one | high
  · rw [Utf8.encode_one one] at split
    rw [← (List.cons.inj split).1, Utf8.toNat_ofNat (by omega)]
  · have first := Utf8.encode_high high (b := b) (by rw [split]; exact List.mem_cons_self)
    omega

theorem lexed_encode {c : Char} (low : 0x20 ≤ c.toNat) (quote : c.toNat ≠ 0x22) (mark : c.toNat ≠ 0x5C) :
    Lexed (Utf8.encode c) := by
  have plain : ∀ b ∈ Utf8.encode c, ¬ b < 0x20 ∧ b ≠ 0x22 ∧ b ≠ 0x5C := by
    intro b found
    rcases Nat.lt_or_ge c.toNat 0x80 with one | high
    · rw [Utf8.encode_one one, List.mem_singleton] at found
      have value : b.toNat = c.toNat := by rw [found, Utf8.toNat_ofNat (by omega)]
      refine ⟨not_control (by omega), ?_, ?_⟩
      · rintro rfl
        exact quote value.symm
      · rintro rfl
        exact mark value.symm
    · have first := Utf8.encode_high high found
      exact ⟨not_control (by omega), ne_of_high first⟩
  generalize Utf8.encode c = u at plain
  induction u with
  | nil => exact .nil
  | cons b u ih =>
    obtain ⟨low, quote, mark⟩ := plain b List.mem_cons_self
    exact .plain low quote mark (ih fun x found => plain x (List.mem_cons_of_mem b found))

theorem stringText_unquote {raw : Bytes} (lexed : Lexed raw) : StringText raw (unquote raw) := by
  generalize size : raw.length = length
  induction length using Nat.strongRecOn generalizing raw with
  | ind length ih =>
    cases lexed with
    | nil => exact .nil
    | @plain b rest low quote mark lexed =>
      have first := unquoteFirst_plain rest mark
      cases read : Utf8.head? (b :: rest) with
      | none =>
        rw [read] at first
        rw [unquote_of_first first]
        exact .stray read (ih _ (by simp at size; omega) lexed rfl)
      | some found =>
        obtain ⟨c, after⟩ := found
        rw [read] at first
        have shorter := Utf8.length_lt_of_head? read
        have split := Utf8.eq_encode_append_of_head? read
        have whole : Lexed (Utf8.encode c ++ after) := split ▸ Lexed.plain low quote mark lexed
        have apart : c.toNat ≠ 0x5C := by
          intro same
          rw [Utf8.encode_one (by omega), same] at split
          exact mark (List.cons.inj split).1
        obtain ⟨printable, other, rest⟩ := char_of_lexed whole apart
        rw [unquote_of_first first, split]
        exact .char printable other apart (ih _ (by omega) rest rfl)
    | @letter e rest escape lexed =>
      have apart : e ≠ 0x75 := by
        rintro rfl
        exact absurd escape (by decide)
      rw [unquote_of_first (unquoteFirst_letter rest apart)]
      exact .letter escape (ih _ (by simp at size; omega) lexed rfl)
    | @code a b c d rest ha hb hc hd lexed =>
      obtain ⟨n, number⟩ := hexNumber?_isSome ha hb hc hd
      simp only [List.length_cons] at size
      have first := unquoteFirst_code rest number
      cases surrogate : isSurrogate n with
      | false =>
        rw [surrogate] at first
        rw [unquote_of_first first]
        exact .code number surrogate (ih _ (by omega) lexed rfl)
      | true =>
        rw [surrogate] at first
        cases second : partner? n rest with
        | none =>
          rw [second] at first
          rw [unquote_of_first first]
          exact .lone number surrogate ((partner?_eq_none_iff n rest).mp second) (ih _ (by omega) lexed rfl)
        | some found =>
          obtain ⟨ch, after⟩ := found
          rw [second] at first
          rw [unquote_of_first first]
          obtain ⟨e, f, g, h, low, split, partner, joined⟩ := eq_of_partner? second
          subst split
          have rest : Lexed after := by
            cases lexed with
            | plain _ _ mark _ => exact absurd rfl mark
            | letter escape _ => exact absurd escape (by decide)
            | code _ _ _ _ rest => exact rest
          simp only [List.length_cons] at size
          exact .pair number partner joined (ih _ (by omega) rest rfl)

theorem unquote_stringText {raw text : Bytes} (string : StringText raw text) : unquote raw = text := by
  induction string with
  | nil => rfl
  | @char c raw text low quote mark _ ih =>
    have read := Utf8.head?_encode_append c raw
    obtain ⟨b, rest, split⟩ := List.exists_cons_of_ne_nil (Utf8.encode_ne_nil c)
    have apart : b ≠ 0x5C := by
      rintro rfl
      exact mark (toNat_of_encode split (by decide))
    have first := unquoteFirst_plain (rest ++ raw) apart
    rw [← List.cons_append, ← split, read] at first
    rw [unquote_of_first first, ih]
  | @stray b raw text unread _ ih =>
    have apart : b ≠ 0x5C := by
      rintro rfl
      exact absurd unread (by simp [Utf8.head?])
    have first := unquoteFirst_plain raw apart
    rw [unread] at first
    rw [unquote_of_first first, ih]
  | @letter e raw text escape _ ih =>
    have apart : e ≠ 0x75 := by
      rintro rfl
      exact absurd escape (by decide)
    rw [unquote_of_first (unquoteFirst_letter raw apart), ih]
    rfl
  | @code a b c d n raw text number surrogate _ ih =>
    have first := unquoteFirst_code raw number
    rw [surrogate] at first
    rw [unquote_of_first first, ih]
  | @pair a b c d e f g h high low ch raw text number partner joined _ ih =>
    have first := unquoteFirst_code (0x5C :: 0x75 :: e :: f :: g :: h :: raw) number
    have second : partner? high (0x5C :: 0x75 :: e :: f :: g :: h :: raw) = some (ch, raw) := by
      simp only [partner?, partner, Option.bind_some, joined, Option.map_some]
    rw [isSurrogate_of_pair? joined, second] at first
    rw [unquote_of_first first, ih]
  | @lone a b c d n raw text number surrogate alone _ ih =>
    have first := unquoteFirst_code raw number
    rw [surrogate, (partner?_eq_none_iff n raw).mpr alone] at first
    rw [unquote_of_first first, ih]

theorem lexed_of_stringText {raw text : Bytes} (string : StringText raw text) : Lexed raw := by
  induction string with
  | nil => exact .nil
  | @char c raw text low quote mark _ ih => exact (lexed_encode low quote mark).append ih
  | @stray b raw text unread _ ih =>
    have high : 0x80 ≤ b.toNat := by
      rcases Nat.lt_or_ge b.toNat 0x80 with low | high
      · simp only [Utf8.head?, Utf8.lt_128_iff, low, if_true, reduceCtorEq] at unread
      · exact high
    exact .plain (not_control (by omega)) (ne_of_high high).1 (ne_of_high high).2 ih
  | letter escape _ ih => exact .letter escape ih
  | code number _ _ ih =>
    obtain ⟨ha, hb, hc, hd⟩ := isSome_of_hexNumber? number
    exact .code ha hb hc hd ih
  | pair number partner _ _ ih =>
    obtain ⟨ha, hb, hc, hd⟩ := isSome_of_hexNumber? number
    obtain ⟨he, hf, hg, hh⟩ := isSome_of_hexNumber? partner
    exact .code ha hb hc hd (.code he hf hg hh ih)
  | lone number _ _ _ ih =>
    obtain ⟨ha, hb, hc, hd⟩ := isSome_of_hexNumber? number
    exact .code ha hb hc hd ih

theorem letterOf_ascii {e : UInt8} (escape : isEscapeLetter e = true) : (letterOf e).toNat < 0x80 := by
  simp only [isEscapeLetter, Bool.or_eq_true, beq_iff_eq] at escape
  rcases escape with ((((((rfl | rfl) | rfl) | rfl) | rfl) | rfl) | rfl) | rfl <;> decide

/-- A string stands for text, whatever its bytes are. -/
theorem valid_stringText {raw text : Bytes} (string : StringText raw text) : Utf8.valid text = true := by
  induction string with
  | nil => rfl
  | char _ _ _ _ ih => exact Utf8.valid_encode_append _ ih
  | stray _ _ ih => exact Utf8.valid_encode_append _ ih
  | letter escape _ ih =>
    rw [← List.singleton_append, ← Utf8.encode_ascii (letterOf_ascii escape)]
    exact Utf8.valid_encode_append _ ih
  | code _ _ _ ih => exact Utf8.valid_encode_append _ ih
  | pair _ _ _ _ ih => exact Utf8.valid_encode_append _ ih
  | lone _ _ _ _ ih => exact Utf8.valid_encode_append _ ih

end BoundedRecords.Json
