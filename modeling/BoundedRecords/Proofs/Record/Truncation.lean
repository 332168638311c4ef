import BoundedRecords.Record.Name
import BoundedRecords.Proofs.Text.Utf8

/-! What a name keeps of a text: of the beginnings of the text that are whole characters, have no zero byte
and fit the buffer, the longest one. -/
namespace BoundedRecords

namespace Utf8

/-! Characters cut short. -/

/-- The sequences of bytes that are one character. -/
inductive Sequence : Bytes → Prop where
  | one {a : UInt8} : a.toNat < 0x80 → Sequence [a]
  | two {a b : UInt8} : isLead2 a = true → isContinuation b = true → Sequence [a, b]
  | three {a b c : UInt8} : isLead3 a = true → isSecond a b = true → isContinuation c = true → Sequence [a, b, c]
  | four {a b c d : UInt8} : isLead4 a = true → isSecond a b = true → isContinuation c = true →
      isContinuation d = true → Sequence [a, b, c, d]

theorem encode_sequence (c : Char) : Sequence (encode c) := by
  have bound := char_toNat_lt c
  have last : isContinuation (UInt8.ofNat (c.toNat % 64 + 128)) = true := by
    rw [isContinuation_iff, toNat_ofNat (by omega)]
    omega
  have middle : (UInt8.ofNat (c.toNat / 64 % 64 + 128)).toNat = c.toNat / 64 % 64 + 128 := toNat_ofNat (by omega)
  rcases Nat.lt_or_ge c.toNat 0x80 with one | one
  · rw [encode_one one]
    exact .one (by rw [toNat_ofNat (by omega)]; exact one)
  rcases Nat.lt_or_ge c.toNat 0x800 with two | two
  · rw [encode_two one two]
    refine .two ?_ last
    rw [isLead2_iff, toNat_ofNat (by omega)]
    omega
  rcases Nat.lt_or_ge c.toNat 0x10000 with three | three
  · have lead : (UInt8.ofNat (c.toNat / 4096 + 224)).toNat = c.toNat / 4096 + 224 := toNat_ofNat (by omega)
    rw [encode_three two three]
    refine .three ?_ ?_ last
    · rw [isLead3_iff, lead]
      omega
    · rw [isSecond_iff, lead, middle]
      omega
  · have lead : (UInt8.ofNat (c.toNat / 262144 + 240)).toNat = c.toNat / 262144 + 240 := toNat_ofNat (by omega)
    have second : (UInt8.ofNat (c.toNat / 4096 % 64 + 128)).toNat = c.toNat / 4096 % 64 + 128 := toNat_ofNat (by omega)
    rw [encode_four three]
    refine .four ?_ ?_ ?_ last
    · rw [isLead4_iff, lead]
      omega
    · rw [isSecond_iff, lead, second]
      omega
    · rw [isContinuation_iff, middle]
      omega

theorem isContinuation_of_isSecond {lead b : UInt8} (second : isSecond lead b = true) : isContinuation b = true := by
  rw [isSecond_iff] at second
  exact (isContinuation_iff b).mpr ⟨second.1, second.2.1⟩

/-- A character is one byte that continues none, and then bytes that do. -/
theorem Sequence.shape {s : Bytes} (sequence : Sequence s) :
    ∃ lead more, s = lead :: more ∧ isContinuation lead = false ∧ ∀ b ∈ more, isContinuation b = true := by
  cases sequence with
  | @one a low =>
    refine ⟨a, [], rfl, ?_, fun _ none => (nomatch none)⟩
    rw [Bool.eq_false_iff, ne_eq, isContinuation_iff]
    omega
  | @two a b lead last =>
    rw [isLead2_iff] at lead
    refine ⟨a, [b], rfl, ?_, by simp [last]⟩
    rw [Bool.eq_false_iff, ne_eq, isContinuation_iff]
    omega
  | @three a b c lead second last =>
    rw [isLead3_iff] at lead
    refine ⟨a, [b, c], rfl, ?_, by simp [isContinuation_of_isSecond second, last]⟩
    rw [Bool.eq_false_iff, ne_eq, isContinuation_iff]
    omega
  | @four a b c d lead second third last =>
    rw [isLead4_iff] at lead
    refine ⟨a, [b, c, d], rfl, ?_, by simp [isContinuation_of_isSecond second, third, last]⟩
    rw [Bool.eq_false_iff, ne_eq, isContinuation_iff]
    omega

theorem Sequence.not_isIncomplete {s : Bytes} (sequence : Sequence s) : isIncomplete s = false := by
  rw [Bool.eq_false_iff]
  cases sequence with
  | one low =>
    simp only [isIncomplete, ne_eq, Bool.or_eq_true, isLead2_iff, isLead3_iff, isLead4_iff]
    omega
  | two lead _ =>
    rw [isLead2_iff] at lead
    simp only [isIncomplete, ne_eq, Bool.and_eq_true, Bool.or_eq_true, isLead3_iff, isLead4_iff]
    omega
  | three lead _ _ =>
    rw [isLead3_iff] at lead
    simp only [isIncomplete, ne_eq, Bool.and_eq_true, isLead4_iff]
    omega
  | four _ _ _ _ => exact Bool.false_ne_true

theorem Sequence.isIncomplete_take {s : Bytes} (sequence : Sequence s) {k : Nat} (some : 0 < k) (part : k < s.length) :
    isIncomplete (s.take k) = true := by
  cases sequence with
  | one _ =>
    rw [List.length_singleton] at part
    omega
  | two lead _ =>
    match k, some, part with
    | 1, _, _ => simp [isIncomplete, lead]
  | three lead second _ =>
    match k, some, part with
    | 1, _, _ => simp [isIncomplete, lead]
    | 2, _, _ => simp [isIncomplete, lead, second]
  | four lead second third _ =>
    match k, some, part with
    | 1, _, _ => simp [isIncomplete, lead]
    | 2, _, _ => simp [isIncomplete, lead, second]
    | 3, _, _ => simp [isIncomplete, lead, second, third]

/-- A beginning that consists of whole characters ends between two characters of the whole. -/
theorem chars_start {cs ds : List Char} (start : cs.flatMap encode <+: ds.flatMap encode) : cs <+: ds := by
  induction cs generalizing ds with
  | nil => exact ⟨ds, rfl⟩
  | cons c cs ih =>
    obtain ⟨rest, split⟩ := start
    rw [List.flatMap_cons, List.append_assoc] at split
    have first := head?_encode_append c (cs.flatMap encode ++ rest)
    cases ds with
    | nil =>
      rw [split] at first
      cases first
    | cons d ds =>
      rw [split, List.flatMap_cons, head?_encode_append] at first
      simp only [Option.some.injEq, Prod.mk.injEq] at first
      obtain ⟨more, rfl⟩ := ih ⟨rest, first.2.symm⟩
      exact ⟨more, by rw [first.1]; rfl⟩

theorem zero_mem_encode_iff (c : Char) : 0 ∈ encode c ↔ c.toNat = 0 := by
  rcases Nat.lt_or_ge c.toNat 0x80 with one | high
  · rw [encode_one one, List.mem_singleton]
    constructor
    · intro zero
      have value := toNat_ofNat (n := c.toNat) (by omega)
      rw [← zero] at value
      exact value.symm
    · intro zero
      rw [zero]
      rfl
  · constructor
    · intro found
      exact absurd (encode_high high found) (by decide)
    · omega

theorem takeWhile_encode (cs : List Char) :
    (cs.flatMap encode).takeWhile (· != 0) = (cs.takeWhile fun c => c.toNat != 0).flatMap encode := by
  induction cs with
  | nil => rfl
  | cons c cs ih =>
    rw [List.flatMap_cons]
    by_cases zero : c.toNat = 0
    · have stops : (c.toNat != 0) = false := by simpa using zero
      have byte : encode c = [0] := by
        rw [encode_one (by omega), zero]
        rfl
      rw [byte, List.takeWhile_cons, stops]
      rfl
    · have goes : (c.toNat != 0) = true := by simpa using zero
      have bytes : ∀ b ∈ encode c, (b != 0) = true := by
        intro b found
        rw [bne_iff_ne]
        rintro rfl
        exact zero ((zero_mem_encode_iff c).mp found)
      rw [List.takeWhile_append_of_pos bytes, ih, List.takeWhile_cons, goes]
      rfl

/-- Where a limit falls in a text that is longer. -/
theorem split_at_limit {cs : List Char} {limit : Nat} (long : limit < (cs.flatMap encode).length) :
    ∃ kept c rest, cs = kept ++ c :: rest ∧ (kept.flatMap encode).length ≤ limit ∧
      limit < (kept.flatMap encode).length + (encode c).length := by
  induction cs generalizing limit with
  | nil => cases long
  | cons c cs ih =>
    rw [List.flatMap_cons, List.length_append] at long
    rcases Nat.lt_or_ge limit (encode c).length with first | later
    · exact ⟨[], c, cs, rfl, Nat.zero_le _, by simpa using first⟩
    · obtain ⟨kept, d, rest, rfl, fits, next⟩ := @ih (limit - (encode c).length) (by omega)
      refine ⟨c :: kept, d, rest, rfl, ?_, ?_⟩
      · rw [List.flatMap_cons, List.length_append]
        omega
      · rw [List.flatMap_cons, List.length_append]
        omega

end Utf8

namespace Name

/-- What a name can hold: whole characters, none of them zero, in at most `maxLength` bytes. -/
structure Fits (p : Bytes) : Prop where
  whole : Utf8.valid p = true
  free : 0 ∉ p
  short : p.length ≤ maxLength

structure LongestFit (s p : Bytes) : Prop where
  start : p <+: s
  fits : Fits p
  longest : ∀ q, q <+: s → Fits q → q <+: p

theorem startsCharacter_suffix {more : Bytes} (continues : ∀ b ∈ more, Utf8.isContinuation b = true) (k : Nat) :
    startsCharacter (more.drop k) = false := by
  cases found : more.drop k with
  | nil => rfl
  | cons b rest =>
    have inside : b ∈ more := List.mem_of_mem_drop (i := k) (by rw [found]; exact List.mem_cons_self)
    simp only [startsCharacter, continues b inside, Bool.not_true]

theorem dropIncomplete_append (p : Bytes) {lead : UInt8} {more : Bytes} (starts : Utf8.isContinuation lead = false)
    (continues : ∀ b ∈ more, Utf8.isContinuation b = true) :
    dropIncomplete (p ++ lead :: more) = if Utf8.isIncomplete (lead :: more) then p else p ++ lead :: more := by
  -- The end of `k` bytes lies within the continuation bytes as long as there are so many.
  have inner : ∀ k, k ≤ more.length →
      startsCharacter ((p ++ lead :: more).drop ((p ++ lead :: more).length - k)) = false := by
    intro k enough
    have size : (p ++ lead :: more).length - k = p.length + (more.length - k + 1) := by
      rw [List.length_append, List.length_cons]
      omega
    rw [size, List.drop_length_add_append, List.drop_succ_cons]
    exact startsCharacter_suffix continues _
  have outer : (p ++ lead :: more).drop ((p ++ lead :: more).length - (more.length + 1)) = lead :: more := by
    rw [List.length_append, List.length_cons, Nat.add_sub_cancel, List.drop_left]
  have head : startsCharacter (lead :: more) = true := by simp only [startsCharacter, starts, Bool.not_false]
  have kept : (p ++ lead :: more).take ((p ++ lead :: more).length - (lead :: more).length) = p := by
    rw [List.length_append, Nat.add_sub_cancel, List.take_left]
  simp only [dropIncomplete, List.map_cons, List.map_nil, List.find?_cons]
  match more, inner, outer, head, kept with
  | [], inner, outer, head, kept =>
    rw [List.length_nil, Nat.zero_add] at outer
    simp only [outer, head, kept]
  | [b], inner, outer, head, kept =>
    have first := inner 1 (by simp)
    simp only [List.length_singleton, Nat.reduceAdd] at outer
    simp only [first, outer, head, kept]
  | [b, c], inner, outer, head, kept =>
    have first := inner 1 (by simp)
    have second := inner 2 (by simp)
    simp only [List.length_cons, List.length_nil, Nat.zero_add, Nat.reduceAdd] at outer
    simp only [first, second, outer, head, kept]
  | b :: c :: d :: rest, inner, _, _, _ =>
    simp only [inner 1 (by simp), inner 2 (by simp), inner 3 (by simp), List.find?_nil]
    rfl

theorem dropIncomplete_whole (cs : List Char) : dropIncomplete (cs.flatMap Utf8.encode) = cs.flatMap Utf8.encode := by
  rcases List.eq_nil_or_concat cs with rfl | ⟨cs, c, rfl⟩
  · rfl
  · obtain ⟨lead, more, shape, starts, continues⟩ := (Utf8.encode_sequence c).shape
    have whole := (Utf8.encode_sequence c).not_isIncomplete
    rw [List.concat_eq_append, List.flatMap_append, List.flatMap_singleton, shape, dropIncomplete_append _ starts continues, ← shape, whole]
    rfl

/-- Cutting at a limit inside a character leaves the characters before it. -/
theorem dropIncomplete_cut (cs : List Char) {c : Char} {k : Nat} (part : k < (Utf8.encode c).length) :
    dropIncomplete (cs.flatMap Utf8.encode ++ (Utf8.encode c).take k) = cs.flatMap Utf8.encode := by
  cases k with
  | zero =>
    rw [List.take_zero, List.append_nil]
    exact dropIncomplete_whole cs
  | succ k =>
    obtain ⟨lead, more, shape, starts, continues⟩ := (Utf8.encode_sequence c).shape
    have cut := (Utf8.encode_sequence c).isIncomplete_take (Nat.succ_pos k) part
    rw [shape, List.take_succ_cons] at cut ⊢
    rw [dropIncomplete_append _ starts fun b found => continues b (List.mem_of_mem_take found), cut]
    rfl

theorem nonzero_of_free {p : Bytes} (free : 0 ∉ p) : ∀ b ∈ p, (b != 0) = true := by
  intro b found
  rw [bne_iff_ne]
  rintro rfl
  exact free found

theorem start_of_free {s q : Bytes} (start : q <+: s) (free : 0 ∉ q) : q <+: s.takeWhile (· != 0) := by
  obtain ⟨rest, rfl⟩ := start
  rw [List.takeWhile_append_of_pos (nonzero_of_free free)]
  exact ⟨_, rfl⟩

theorem zero_not_mem_takeWhile (s : Bytes) : 0 ∉ s.takeWhile (· != 0) := by
  intro found
  have nonzero := List.all_eq_true.mp (List.all_takeWhile (p := (· != 0)) (l := s)) 0 found
  exact absurd nonzero (by decide)

theorem truncate_longestFit {s : Bytes} (whole : Utf8.valid s = true) : LongestFit s (truncate s) := by
  obtain ⟨cs, rfl⟩ := (Utf8.valid_iff s).mp whole
  have text := Utf8.takeWhile_encode cs
  have free := zero_not_mem_takeWhile (cs.flatMap Utf8.encode)
  have begins : (cs.flatMap Utf8.encode).takeWhile (· != 0) <+: cs.flatMap Utf8.encode :=
    ⟨_, List.takeWhile_append_dropWhile⟩
  unfold truncate
  rw [text] at free begins ⊢
  generalize (cs.takeWhile fun c => c.toNat != 0) = ds at text free begins
  simp only
  split
  · rename_i short
    refine ⟨begins, ⟨Utf8.valid_flatMap_encode ds, free, short⟩, fun q start fits => ?_⟩
    rw [← text]
    exact start_of_free start fits.free
  · rename_i long
    obtain ⟨kept, c, rest, rfl, fits, next⟩ := Utf8.split_at_limit (Nat.not_le.mp long)
    have taken : ((kept ++ c :: rest).flatMap Utf8.encode).take maxLength =
        kept.flatMap Utf8.encode ++ (Utf8.encode c).take (maxLength - (kept.flatMap Utf8.encode).length) := by
      rw [List.flatMap_append, List.flatMap_cons, List.take_append, List.take_of_length_le fits,
        List.take_append_of_le_length (by omega)]
    rw [taken, dropIncomplete_cut kept (by omega)]
    have inside : kept.flatMap Utf8.encode <+: (kept ++ c :: rest).flatMap Utf8.encode := by
      rw [List.flatMap_append]
      exact ⟨_, rfl⟩
    refine ⟨inside.trans begins, ⟨Utf8.valid_flatMap_encode kept, fun found => free (inside.mem found), fits⟩, ?_⟩
    intro q start held
    obtain ⟨qs, rfl⟩ := (Utf8.valid_iff q).mp held.whole
    have within : qs <+: kept ++ c :: rest := Utf8.chars_start (text ▸ start_of_free start held.free)
    rcases Nat.lt_or_ge kept.length qs.length with longer | shorter
    · -- One more character than `kept` is already too long.
      have more : kept ++ [c] <+: qs :=
        List.prefix_of_prefix_length_le ⟨rest, by simp⟩ within (by rw [List.length_append]; exact longer)
      obtain ⟨tail, rfl⟩ := more
      have short := held.short
      simp only [List.flatMap_append, List.flatMap_singleton, List.length_append] at short
      omega
    · obtain ⟨tail, rfl⟩ := List.prefix_of_prefix_length_le within ⟨c :: rest, rfl⟩ shorter
      rw [List.flatMap_append]
      exact ⟨_, rfl⟩

/-- Zero bytes behind a text that has none are no part of it. -/
theorem text_padded {p : Bytes} (free : 0 ∉ p) (k : Nat) : text ⟨p ++ List.replicate k 0⟩ = p := by
  rw [text, List.takeWhile_append_of_pos (nonzero_of_free free)]
  simp

/-- The buffer gives back what was kept of the text. -/
theorem text_new {s : Bytes} (whole : Utf8.valid s = true) : (new s).text = truncate s :=
  text_padded (truncate_longestFit whole).fits.free _

theorem new_longestFit {s : Bytes} (whole : Utf8.valid s = true) : LongestFit s (new s).text := by
  rw [text_new whole]
  exact truncate_longestFit whole

/-- A name holds the longest beginning of a well-formed text that fits, so it holds no less of a text than of
any beginning of it. -/
theorem longest_beginning_kept {s : Bytes} (whole : Utf8.valid s = true) :
    LongestFit s (new s).text ∧
      ∀ p, Utf8.valid p = true → p <+: s → (new p).text <+: (new s).text := by
  have longest := new_longestFit whole
  refine ⟨longest, ?_⟩
  intro p part start
  have shorter := new_longestFit part
  exact longest.longest _ (shorter.start.trans start) shorter.fits

/-- A character of four bytes that ends at the limit is kept, and one of two bytes behind it is not. -/
theorem longest_beginning_kept_to_limit :
    let p : Bytes := List.replicate 95 0x61 ++ [0xF0, 0x9F, 0x94, 0x91]
    let s : Bytes := p ++ [0xC3, 0xA9]
    Utf8.valid p = true ∧ Utf8.valid s = true ∧ LongestFit s (new s).text ∧ (new s).text = p ∧
      (new p).text <+: (new s).text := by
  intro p s
  have part : Utf8.valid p = true := by decide +kernel
  have whole : Utf8.valid s = true := by decide +kernel
  obtain ⟨longest, grows⟩ := longest_beginning_kept whole
  exact ⟨part, whole, longest, by decide +kernel, grows p part ⟨_, rfl⟩⟩

end Name
end BoundedRecords
