import BoundedRecords.Text.Utf8

/-! UTF-8 read back. A character is read from its encoding and from nothing else, so a well-formed text
is the encoding of exactly one list of characters. -/
namespace BoundedRecords.Utf8

theorem char_toNat_lt (c : Char) : c.toNat < 0xD800 ∨ (0xE000 ≤ c.toNat ∧ c.toNat < 0x110000) := by
  have valid := c.valid
  simp only [UInt32.isValidChar, Nat.isValidChar] at valid
  simp only [Char.toNat]
  omega

theorem encode_eq (c : Char) :
    encode c =
      if c.toNat ≤ 127 then [UInt8.ofNat c.toNat]
      else if c.toNat ≤ 2047 then [UInt8.ofNat (c.toNat / 64 % 32 + 192), UInt8.ofNat (c.toNat % 64 + 128)]
      else if c.toNat ≤ 65535 then
        [UInt8.ofNat (c.toNat / 4096 % 16 + 224), UInt8.ofNat (c.toNat / 64 % 64 + 128), UInt8.ofNat (c.toNat % 64 + 128)]
      else
        [UInt8.ofNat (c.toNat / 262144 % 8 + 240), UInt8.ofNat (c.toNat / 4096 % 64 + 128),
          UInt8.ofNat (c.toNat / 64 % 64 + 128), UInt8.ofNat (c.toNat % 64 + 128)] := by
  rw [encode, String.utf8EncodeChar]
  rfl

theorem encode_one {c : Char} (low : c.toNat < 0x80) : encode c = [UInt8.ofNat c.toNat] := by
  rw [encode_eq, if_pos (by omega)]

theorem encode_two {c : Char} (high : 0x80 ≤ c.toNat) (low : c.toNat < 0x800) :
    encode c = [UInt8.ofNat (c.toNat / 64 + 192), UInt8.ofNat (c.toNat % 64 + 128)] := by
  have lead : c.toNat / 64 % 32 = c.toNat / 64 := by omega
  rw [encode_eq, if_neg (by omega), if_pos (by omega), lead]

theorem encode_three {c : Char} (high : 0x800 ≤ c.toNat) (low : c.toNat < 0x10000) :
    encode c = [UInt8.ofNat (c.toNat / 4096 + 224), UInt8.ofNat (c.toNat / 64 % 64 + 128),
      UInt8.ofNat (c.toNat % 64 + 128)] := by
  have lead : c.toNat / 4096 % 16 = c.toNat / 4096 := by omega
  rw [encode_eq, if_neg (by omega), if_neg (by omega), if_pos (by omega), lead]

theorem encode_four {c : Char} (high : 0x10000 ≤ c.toNat) :
    encode c = [UInt8.ofNat (c.toNat / 262144 + 240), UInt8.ofNat (c.toNat / 4096 % 64 + 128),
      UInt8.ofNat (c.toNat / 64 % 64 + 128), UInt8.ofNat (c.toNat % 64 + 128)] := by
  have bound := char_toNat_lt c
  have lead : c.toNat / 262144 % 8 = c.toNat / 262144 := by omega
  rw [encode_eq, if_neg (by omega), if_neg (by omega), if_neg (by omega), lead]

theorem toNat_ofNat {n : Nat} (small : n < 256) : (UInt8.ofNat n).toNat = n := by
  rw [UInt8.toNat_ofNat']
  exact Nat.mod_eq_of_lt small

/-- Beyond ASCII every byte of a character is. -/
theorem encode_high {c : Char} (high : 0x80 ≤ c.toNat) {b : UInt8} (found : b ∈ encode c) : 0x80 ≤ b.toNat := by
  have bound := char_toNat_lt c
  rcases Nat.lt_or_ge c.toNat 0x800 with two | two
  · rw [encode_two high two] at found
    simp only [List.mem_cons, List.not_mem_nil, or_false] at found
    rcases found with rfl | rfl <;> rw [toNat_ofNat (by omega)] <;> omega
  rcases Nat.lt_or_ge c.toNat 0x10000 with three | three
  · rw [encode_three two three] at found
    simp only [List.mem_cons, List.not_mem_nil, or_false] at found
    rcases found with rfl | rfl | rfl <;> rw [toNat_ofNat (by omega)] <;> omega
  · rw [encode_four three] at found
    simp only [List.mem_cons, List.not_mem_nil, or_false] at found
    rcases found with rfl | rfl | rfl | rfl <;> rw [toNat_ofNat (by omega)] <;> omega

/-! The classes of bytes as numbers. -/

theorem isContinuation_iff (b : UInt8) : isContinuation b = true ↔ 0x80 ≤ b.toNat ∧ b.toNat ≤ 0xBF := by
  simp [isContinuation, UInt8.le_iff_toNat_le]

theorem isLead2_iff (b : UInt8) : isLead2 b = true ↔ 0xC2 ≤ b.toNat ∧ b.toNat ≤ 0xDF := by
  simp [isLead2, UInt8.le_iff_toNat_le]

theorem isLead3_iff (b : UInt8) : isLead3 b = true ↔ 0xE0 ≤ b.toNat ∧ b.toNat ≤ 0xEF := by
  simp [isLead3, UInt8.le_iff_toNat_le]

theorem isLead4_iff (b : UInt8) : isLead4 b = true ↔ 0xF0 ≤ b.toNat ∧ b.toNat ≤ 0xF4 := by
  simp [isLead4, UInt8.le_iff_toNat_le]

theorem isSecond_iff (lead b : UInt8) :
    isSecond lead b = true ↔
      0x80 ≤ b.toNat ∧ b.toNat ≤ 0xBF ∧ (lead.toNat = 0xE0 → 0xA0 ≤ b.toNat) ∧
        (lead.toNat = 0xED → b.toNat ≤ 0x9F) ∧ (lead.toNat = 0xF0 → 0x90 ≤ b.toNat) ∧
        (lead.toNat = 0xF4 → b.toNat ≤ 0x8F) := by
  unfold isSecond
  simp only [beq_iff_eq, ← UInt8.toNat_inj, isContinuation]
  split
  · simp [UInt8.le_iff_toNat_le] at *
    omega
  · split
    · simp [UInt8.le_iff_toNat_le] at *
      omega
    · split
      · simp [UInt8.le_iff_toNat_le] at *
        omega
      · split
        · simp [UInt8.le_iff_toNat_le] at *
          omega
        · simp [UInt8.le_iff_toNat_le] at *
          omega

/-! Reading one character. -/

theorem lt_128_iff (b : UInt8) : b < 0x80 ↔ b.toNat < 128 := by
  simp [UInt8.lt_iff_toNat_lt]

theorem head?_two {a b : UInt8} (rest : Bytes) (lead : isLead2 a = true) (second : isContinuation b = true) :
    head? (a :: b :: rest) = some (Char.ofNat (a.toNat % 32 * 64 + b.toNat % 64), rest) := by
  have range := (isLead2_iff a).mp lead
  have high : ¬ a < 0x80 := by rw [lt_128_iff]; omega
  rw [head?.eq_def]
  dsimp only
  rw [if_neg high, if_pos lead, if_pos second]
  rfl

theorem head?_three {a b c : UInt8} (rest : Bytes) (lead : isLead3 a = true) (second : isSecond a b = true)
    (third : isContinuation c = true) :
    head? (a :: b :: c :: rest) =
      some (Char.ofNat ((a.toNat % 16 * 64 + b.toNat % 64) * 64 + c.toNat % 64), rest) := by
  have range := (isLead3_iff a).mp lead
  have high : ¬ a < 0x80 := by rw [lt_128_iff]; omega
  have other : ¬ isLead2 a = true := by rw [isLead2_iff]; omega
  have accepted : (isSecond a b && isContinuation c) = true := by rw [second, third]; rfl
  rw [head?.eq_def]
  dsimp only
  rw [if_neg high, if_neg other, if_pos lead, if_pos accepted]
  rfl

theorem head?_four {a b c d : UInt8} (rest : Bytes) (lead : isLead4 a = true) (second : isSecond a b = true)
    (third : isContinuation c = true) (fourth : isContinuation d = true) :
    head? (a :: b :: c :: d :: rest) =
      some (Char.ofNat (((a.toNat % 8 * 64 + b.toNat % 64) * 64 + c.toNat % 64) * 64 + d.toNat % 64), rest) := by
  have range := (isLead4_iff a).mp lead
  have high : ¬ a < 0x80 := by rw [lt_128_iff]; omega
  have other : ¬ isLead2 a = true := by rw [isLead2_iff]; omega
  have third_other : ¬ isLead3 a = true := by rw [isLead3_iff]; omega
  have accepted : (isSecond a b && isContinuation c && isContinuation d) = true := by rw [second, third, fourth]; rfl
  rw [head?.eq_def]
  dsimp only
  rw [if_neg high, if_neg other, if_neg third_other, if_pos lead, if_pos accepted]
  rfl

theorem head?_encode_append (c : Char) (rest : Bytes) : head? (encode c ++ rest) = some (c, rest) := by
  have bound := char_toNat_lt c
  have last : (UInt8.ofNat (c.toNat % 64 + 128)).toNat = c.toNat % 64 + 128 := toNat_ofNat (by omega)
  have middle : (UInt8.ofNat (c.toNat / 64 % 64 + 128)).toNat = c.toNat / 64 % 64 + 128 :=
    toNat_ofNat (by omega)
  rcases Nat.lt_or_ge c.toNat 0x80 with one | one
  · rw [encode_one one]
    have lead : (UInt8.ofNat c.toNat).toNat = c.toNat := toNat_ofNat (by omega)
    simp only [List.cons_append, List.nil_append, head?, lt_128_iff, lead, if_pos one, Char.ofNat_toNat]
  rcases Nat.lt_or_ge c.toNat 0x800 with two | two
  · rw [encode_two one two]
    have lead : (UInt8.ofNat (c.toNat / 64 + 192)).toNat = c.toNat / 64 + 192 := toNat_ofNat (by omega)
    refine (head?_two rest ?_ ?_).trans ?_
    · rw [isLead2_iff, lead]; omega
    · rw [isContinuation_iff, last]; omega
    · have value : (c.toNat / 64 + 192) % 32 * 64 + (c.toNat % 64 + 128) % 64 = c.toNat := by omega
      rw [lead, last, value, Char.ofNat_toNat]
  rcases Nat.lt_or_ge c.toNat 0x10000 with three | three
  · rw [encode_three two three]
    have lead : (UInt8.ofNat (c.toNat / 4096 + 224)).toNat = c.toNat / 4096 + 224 := toNat_ofNat (by omega)
    refine (head?_three rest ?_ ?_ ?_).trans ?_
    · rw [isLead3_iff, lead]; omega
    · rw [isSecond_iff, lead, middle]; omega
    · rw [isContinuation_iff, last]; omega
    · have value : ((c.toNat / 4096 + 224) % 16 * 64 + (c.toNat / 64 % 64 + 128) % 64) * 64 +
          (c.toNat % 64 + 128) % 64 = c.toNat := by omega
      rw [lead, middle, last, value, Char.ofNat_toNat]
  · rw [encode_four three]
    have lead : (UInt8.ofNat (c.toNat / 262144 + 240)).toNat = c.toNat / 262144 + 240 := toNat_ofNat (by omega)
    have second : (UInt8.ofNat (c.toNat / 4096 % 64 + 128)).toNat = c.toNat / 4096 % 64 + 128 :=
      toNat_ofNat (by omega)
    refine (head?_four rest ?_ ?_ ?_ ?_).trans ?_
    · rw [isLead4_iff, lead]; omega
    · rw [isSecond_iff, lead, second]; omega
    · rw [isContinuation_iff, middle]; omega
    · rw [isContinuation_iff, last]; omega
    · have value : (((c.toNat / 262144 + 240) % 8 * 64 + (c.toNat / 4096 % 64 + 128) % 64) * 64 +
          (c.toNat / 64 % 64 + 128) % 64) * 64 + (c.toNat % 64 + 128) % 64 = c.toNat := by omega
      rw [lead, second, middle, last, value, Char.ofNat_toNat]

theorem toNat_charOf {n : Nat} (scalar : n < 0xD800 ∨ (0xE000 ≤ n ∧ n < 0x110000)) :
    (Char.ofNat n).toNat = n := by
  have valid : n.isValidChar := by
    simp only [Nat.isValidChar]
    omega
  rw [Char.ofNat, dif_pos valid]
  rfl

theorem encode_ascii {b : UInt8} (low : b.toNat < 0x80) : encode (Char.ofNat b.toNat) = [b] := by
  have value := toNat_charOf (n := b.toNat) (by omega)
  rw [encode_one (by omega), value, UInt8.ofNat_toNat]

theorem byte_eq {n : Nat} {b : UInt8} (same : n = b.toNat) : UInt8.ofNat n = b := by
  rw [same]
  exact UInt8.ofNat_toNat

theorem eq_encode_append_of_head? {s : Bytes} {c : Char} {rest : Bytes} (read : head? s = some (c, rest)) :
    s = encode c ++ rest := by
  unfold head? at read
  split at read
  · cases read
  rename_i a s
  split at read
  · rename_i low
    simp only [Option.some.injEq, Prod.mk.injEq] at read
    obtain ⟨rfl, rfl⟩ := read
    rw [lt_128_iff] at low
    rw [encode_ascii low]
    rfl
  split at read
  · rename_i lead
    rw [isLead2_iff] at lead
    split at read
    · rename_i b t
      split at read
      · rename_i second
        rw [isContinuation_iff] at second
        simp only [Option.some.injEq, Prod.mk.injEq, payload] at read
        obtain ⟨rfl, rfl⟩ := read
        have value := toNat_charOf (n := a.toNat % 32 * 64 + b.toNat % 64) (by omega)
        rw [encode_two (by omega) (by omega), value,
          byte_eq (b := a) (by omega), byte_eq (b := b) (by omega)]
        rfl
      · cases read
    · cases read
  split at read
  · rename_i lead
    rw [isLead3_iff] at lead
    split at read
    · rename_i b c t
      split at read
      · rename_i follow
        rw [Bool.and_eq_true, isSecond_iff, isContinuation_iff] at follow
        simp only [Option.some.injEq, Prod.mk.injEq, payload] at read
        obtain ⟨rfl, rfl⟩ := read
        have value := toNat_charOf (n := (a.toNat % 16 * 64 + b.toNat % 64) * 64 + c.toNat % 64) (by omega)
        rw [encode_three (by omega) (by omega), value, byte_eq (b := a) (by omega),
          byte_eq (b := b) (by omega), byte_eq (b := c) (by omega)]
        rfl
      · cases read
    · cases read
  split at read
  · rename_i lead
    rw [isLead4_iff] at lead
    split at read
    · rename_i b c d t
      split at read
      · rename_i follow
        rw [Bool.and_eq_true, Bool.and_eq_true, isSecond_iff, isContinuation_iff, isContinuation_iff] at follow
        simp only [Option.some.injEq, Prod.mk.injEq, payload] at read
        obtain ⟨rfl, rfl⟩ := read
        have value := toNat_charOf
          (n := ((a.toNat % 8 * 64 + b.toNat % 64) * 64 + c.toNat % 64) * 64 + d.toNat % 64) (by omega)
        rw [encode_four (by omega), value, byte_eq (b := a) (by omega), byte_eq (b := b) (by omega),
          byte_eq (b := c) (by omega), byte_eq (b := d) (by omega)]
        rfl
      · cases read
    · cases read
  · cases read

/-! Whole texts. -/

theorem encode_ne_nil (c : Char) : encode c ≠ [] := String.utf8EncodeChar_ne_nil

theorem length_lt_of_head? {s : Bytes} {c : Char} {rest : Bytes} (read : head? s = some (c, rest)) :
    rest.length < s.length := by
  rw [eq_encode_append_of_head? read, List.length_append]
  have positive := List.length_pos_iff.mpr (encode_ne_nil c)
  omega

theorem piecesOnto_append (fuel : Nat) (done : List Piece) (s : Bytes) :
    piecesOnto fuel done s = piecesOnto fuel [] s ++ done := by
  induction fuel generalizing done s with
  | zero => rfl
  | succ fuel ih =>
    cases s with
    | nil => rfl
    | cons b rest =>
      simp only [piecesOnto]
      split
      · rename_i c after read
        rw [ih (.char c :: done), ih [.char c], List.append_assoc]
        rfl
      · rw [ih (.stray b :: done), ih [.stray b], List.append_assoc]
        rfl

theorem piecesOnto_fuel {fuel fuel' : Nat} {s : Bytes} (enough : s.length ≤ fuel)
    (enough' : s.length ≤ fuel') (done : List Piece) : piecesOnto fuel done s = piecesOnto fuel' done s := by
  induction fuel generalizing fuel' s done with
  | zero =>
    rw [List.length_eq_zero_iff.mp (Nat.le_zero.mp enough)]
    cases fuel' <;> rfl
  | succ fuel ih =>
    cases s with
    | nil => cases fuel' <;> rfl
    | cons b rest =>
      cases fuel' with
      | zero => simp at enough'
      | succ fuel' =>
        simp only [List.length_cons, Nat.add_le_add_iff_right] at enough enough'
        simp only [piecesOnto]
        split
        · rename_i c after read
          have shorter := length_lt_of_head? read
          simp only [List.length_cons] at shorter
          exact ih (by omega) (by omega) _
        · exact ih enough enough' _

theorem pieces_of_head? {s : Bytes} {c : Char} {rest : Bytes} (read : head? s = some (c, rest)) :
    pieces s = .char c :: pieces rest := by
  have shorter := length_lt_of_head? read
  cases s with
  | nil => cases read
  | cons b t =>
    simp only [List.length_cons] at shorter
    simp only [pieces, List.length_cons, piecesOnto, read]
    rw [piecesOnto_append, piecesOnto_fuel (by omega) (Nat.le_refl rest.length)]
    simp

theorem pieces_stray {b : UInt8} {rest : Bytes} (unread : head? (b :: rest) = none) :
    pieces (b :: rest) = .stray b :: pieces rest := by
  simp only [pieces, List.length_cons, piecesOnto, unread]
  rw [piecesOnto_append]
  simp

@[simp]
theorem pieces_nil : pieces [] = [] := rfl

@[simp]
theorem pieces_encode_append (c : Char) (s : Bytes) : pieces (encode c ++ s) = .char c :: pieces s :=
  pieces_of_head? (head?_encode_append c s)

@[simp]
theorem pieces_flatMap_encode (cs : List Char) : pieces (cs.flatMap encode) = cs.map .char := by
  induction cs with
  | nil => rfl
  | cons c cs ih => simp only [List.flatMap_cons, pieces_encode_append, ih, List.map_cons]

theorem valid_flatMap_encode (cs : List Char) : valid (cs.flatMap encode) = true := by
  simp [valid, Piece.isChar]

/-- Reading a text piece by piece: nothing left, a character, or a byte that begins none. -/
theorem pieces_induction {motive : Bytes → Prop} (nil : motive [])
    (char : ∀ c s, motive s → motive (encode c ++ s))
    (stray : ∀ b s, head? (b :: s) = none → motive s → motive (b :: s)) (s : Bytes) : motive s := by
  generalize size : s.length = n
  induction n using Nat.strongRecOn generalizing s with
  | ind n ih =>
    cases s with
    | nil => exact nil
    | cons b t =>
      cases read : head? (b :: t) with
      | none => exact stray b t read (ih t.length (by simp at size; omega) t rfl)
      | some found =>
        obtain ⟨c, rest⟩ := found
        have shorter := length_lt_of_head? read
        rw [eq_encode_append_of_head? read]
        exact char c rest (ih rest.length (by omega) rest rfl)

theorem flatMap_encode_chars {s : Bytes} (whole : valid s = true) : (chars s).flatMap encode = s := by
  induction s using pieces_induction with
  | nil => rfl
  | char c s ih =>
    simp only [valid, pieces_encode_append, List.all_cons, Piece.isChar, Bool.true_and] at whole
    have rest := ih whole
    simp only [chars] at rest
    simp only [chars, pieces_encode_append, List.map_cons, Piece.shown, List.flatMap_cons, rest]
  | stray b s unread ih =>
    simp [valid, pieces_stray unread, Piece.isChar] at whole

theorem valid_encode_append (c : Char) {s : Bytes} (rest : valid s = true) : valid (encode c ++ s) = true := by
  simp only [valid, pieces_encode_append, List.all_cons, Piece.isChar, Bool.true_and]
  exact rest

theorem valid_iff (s : Bytes) : valid s = true ↔ ∃ cs : List Char, s = cs.flatMap encode := by
  constructor
  · intro whole
    exact ⟨chars s, (flatMap_encode_chars whole).symm⟩
  · rintro ⟨cs, rfl⟩
    exact valid_flatMap_encode cs

end BoundedRecords.Utf8
