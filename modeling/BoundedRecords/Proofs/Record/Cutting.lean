import BoundedRecords.Proofs.Record.Truncation

/-! The cut of a name on every byte string, well formed or not. Where the limit falls into a character, the bytes of
it before the limit go too; what counts is only whether they could still have become a character. -/
namespace BoundedRecords

namespace Utf8

/-- A character cut short: some of its bytes from the first on, but not all. -/
def CutShort (u : Bytes) : Prop := u ≠ [] ∧ ∃ c : Char, u <+: encode c ∧ u ≠ encode c

theorem Sequence.encoded {s : Bytes} (sequence : Sequence s) : ∃ c, s = encode c := by
  have read : ∃ c, head? s = some (c, []) := by
    cases sequence with
    | one low => exact ⟨_, if_pos ((lt_128_iff _).mpr low)⟩
    | two lead last => exact ⟨_, head?_two [] lead last⟩
    | three lead second last => exact ⟨_, head?_three [] lead second last⟩
    | four lead second third last => exact ⟨_, head?_four [] lead second third last⟩
  obtain ⟨c, read⟩ := read
  exact ⟨c, by simpa using eq_encode_append_of_head? read⟩

theorem second_exists (lead : UInt8) : ∃ b, isSecond lead b = true := by
  -- E0 and F0 admit no low second byte, ED and F4 no high one.
  by_cases low : lead.toNat = 0xE0 ∨ lead.toNat = 0xF0
  · refine ⟨0xA0, (isSecond_iff lead 0xA0).mpr ?_⟩
    simp only [UInt8.reduceToNat]
    omega
  · refine ⟨0x80, (isSecond_iff lead 0x80).mpr ?_⟩
    simp only [UInt8.reduceToNat]
    omega

theorem isIncomplete_completes {u : Bytes} (cut : isIncomplete u = true) :
    ∃ more, more ≠ [] ∧ Sequence (u ++ more) := by
  have last : isContinuation 0x80 = true := by decide
  match u, cut with
  | [a], cut =>
    simp only [isIncomplete, Bool.or_eq_true] at cut
    obtain ⟨b, second⟩ := second_exists a
    rcases cut with (two | three) | four
    · exact ⟨[0x80], List.cons_ne_nil _ _, .two two last⟩
    · exact ⟨[b, 0x80], List.cons_ne_nil _ _, .three three second last⟩
    · exact ⟨[b, 0x80, 0x80], List.cons_ne_nil _ _, .four four second last last⟩
  | [a, b], cut =>
    simp only [isIncomplete, Bool.and_eq_true, Bool.or_eq_true] at cut
    obtain ⟨three | four, second⟩ := cut
    · exact ⟨[0x80], List.cons_ne_nil _ _, .three three second last⟩
    · exact ⟨[0x80, 0x80], List.cons_ne_nil _ _, .four four second last last⟩
  | [a, b, c], cut =>
    simp only [isIncomplete, Bool.and_eq_true] at cut
    obtain ⟨⟨four, second⟩, third⟩ := cut
    exact ⟨[0x80], List.cons_ne_nil _ _, .four four second third last⟩

theorem isIncomplete_iff (u : Bytes) : isIncomplete u = true ↔ CutShort u := by
  constructor
  · intro cut
    obtain ⟨more, some, sequence⟩ := isIncomplete_completes cut
    obtain ⟨c, whole⟩ := sequence.encoded
    refine ⟨?_, c, ⟨more, whole⟩, ?_⟩
    · rintro rfl
      cases cut
    · intro same
      apply some
      simpa [same] using whole
  · rintro ⟨some, c, start, part⟩
    have shorter : u.length < (encode c).length := by
      apply Nat.lt_of_le_of_ne start.length_le
      intro same
      exact part (start.eq_of_length same)
    rw [List.prefix_iff_eq_take.mp start]
    exact (encode_sequence c).isIncomplete_take (List.length_pos_iff.mpr some) shorter

theorem CutShort.shape {u : Bytes} (cut : CutShort u) :
    ∃ lead more, u = lead :: more ∧ isContinuation lead = false ∧ ∀ b ∈ more, isContinuation b = true := by
  obtain ⟨some, c, start, _⟩ := cut
  obtain ⟨lead, more, shape, starts, continues⟩ := (encode_sequence c).shape
  rw [shape] at start
  cases u with
  | nil => exact absurd rfl some
  | cons a rest =>
    obtain ⟨rfl, inside⟩ := List.cons_prefix_cons.mp start
    exact ⟨a, rest, rfl, starts, fun b found => continues b (inside.mem found)⟩

theorem CutShort.length_le {u : Bytes} (cut : CutShort u) : u.length ≤ 3 := by
  match u, (isIncomplete_iff u).mpr cut with
  | [_], _ => simp
  | [_, _], _ => simp
  | [_, _, _], _ => simp

/-- Either no byte begins a character, or there is a last one that does. -/
theorem last_start (s : Bytes) :
    (∀ b ∈ s, isContinuation b = true) ∨
      ∃ p lead more, s = p ++ lead :: more ∧ isContinuation lead = false ∧ ∀ b ∈ more, isContinuation b = true := by
  induction s with
  | nil => exact .inl fun _ none => (nomatch none)
  | cons a s ih =>
    rcases ih with continues | ⟨p, lead, more, rfl, starts, continues⟩
    · cases first : isContinuation a with
      | true => exact .inl (List.forall_mem_cons.mpr ⟨first, continues⟩)
      | false => exact .inr ⟨[], a, s, rfl, first, continues⟩
    · exact .inr ⟨a :: p, lead, more, rfl, starts, continues⟩

end Utf8

namespace Name

theorem dropIncomplete_continues {s : Bytes} (continues : ∀ b ∈ s, Utf8.isContinuation b = true) :
    dropIncomplete s = s := by
  simp only [dropIncomplete, List.map_cons, List.map_nil, List.find?_cons, List.find?_nil,
    startsCharacter_suffix continues]

theorem dropIncomplete_cutShort (p : Bytes) {u : Bytes} (cut : Utf8.CutShort u) : dropIncomplete (p ++ u) = p := by
  obtain ⟨lead, more, rfl, starts, continues⟩ := cut.shape
  rw [dropIncomplete_append p starts continues]
  exact if_pos ((Utf8.isIncomplete_iff _).mpr cut)

theorem dropIncomplete_uncut {s : Bytes} (uncut : ∀ u, u <:+ s → ¬ Utf8.CutShort u) : dropIncomplete s = s := by
  rcases Utf8.last_start s with continues | ⟨p, lead, more, rfl, starts, continues⟩
  · exact dropIncomplete_continues continues
  · rw [dropIncomplete_append p starts continues]
    apply if_neg
    intro incomplete
    exact uncut _ ⟨p, rfl⟩ ((Utf8.isIncomplete_iff _).mp incomplete)

theorem dropIncomplete_cases (s : Bytes) :
    dropIncomplete s = s ∨ ∃ u, Utf8.CutShort u ∧ dropIncomplete s ++ u = s := by
  by_cases cuts : ∃ u, u <:+ s ∧ Utf8.CutShort u
  · obtain ⟨u, ⟨p, rfl⟩, cut⟩ := cuts
    exact .inr ⟨u, cut, by rw [dropIncomplete_cutShort p cut]⟩
  · exact .inl (dropIncomplete_uncut fun u ends cut => cuts ⟨u, ends, cut⟩)

theorem truncate_start (s : Bytes) : truncate s <+: (s.takeWhile (· != 0)).take maxLength := by
  simp only [truncate]
  split
  · rename_i short
    exact ⟨[], by rw [List.append_nil, List.take_of_length_le short]⟩
  · rcases dropIncomplete_cases ((s.takeWhile (· != 0)).take maxLength) with same | ⟨u, _, split⟩
    · exact ⟨[], by rw [List.append_nil, same]⟩
    · exact ⟨u, split⟩

theorem truncate_free (s : Bytes) : 0 ∉ truncate s := by
  intro found
  exact zero_not_mem_takeWhile s (List.mem_of_mem_take ((truncate_start s).mem found))

theorem truncate_short (s : Bytes) : (truncate s).length ≤ maxLength :=
  Nat.le_trans (truncate_start s).length_le (List.length_take_le _ _)

theorem text_eq_truncate (s : Bytes) : (new s).text = truncate s := text_padded (truncate_free s) _

theorem takeWhile_eq_take_idxOf (s : Bytes) : s.takeWhile (· != 0) = s.take (s.idxOf 0) := by
  rw [List.takeWhile_eq_take_findIdx_not, List.idxOf]
  simp only [bne, Bool.not_not]

/-- What a name holds of any bytes `s`, with `t` the bytes before the first zero byte. Beyond 99 bytes, the end of
the first 99 that could still have become a character goes; there is at most one such end, of at most three bytes. -/
theorem name_cut_exactly (s : Bytes) :
    let t := s.take (s.idxOf 0)
    let c := t.take 99
    (t.length ≤ 99 → (new s).text = t) ∧
    (99 < t.length →
      (∀ u, u <:+ c → Utf8.CutShort u →
        (∀ v, v <:+ c → Utf8.CutShort v → v = u) ∧ u.length ≤ 3 ∧ (new s).text ++ u = c) ∧
      ((∀ u, u <:+ c → ¬ Utf8.CutShort u) → (new s).text = c)) := by
  intro t c
  have kept : (new s).text = if t.length ≤ 99 then t else dropIncomplete c := by
    rw [text_eq_truncate, truncate, takeWhile_eq_take_idxOf]
    rfl
  constructor
  · intro short
    rw [kept, if_pos short]
  · intro long
    rw [kept, if_neg (Nat.not_le.mpr long)]
    have dropped : ∀ u, u <:+ c → Utf8.CutShort u → dropIncomplete c ++ u = c := by
      rintro u ⟨p, split⟩ cut
      rw [← split, dropIncomplete_cutShort p cut]
    refine ⟨fun u ends cut => ⟨?_, cut.length_le, dropped u ends cut⟩, dropIncomplete_uncut⟩
    -- Both ends stand behind what is kept, which does not depend on them.
    intro v ends' cut'
    exact List.append_cancel_left ((dropped v ends' cut').trans (dropped u ends cut).symm)

-- ED A0 begins no character, since ED A0 80 would be a surrogate; E0 A0 does.
example : (new (List.replicate 97 0x61 ++ [0xED, 0xA0, 0x80])).text = List.replicate 97 0x61 ++ [0xED, 0xA0] ∧
    (new (List.replicate 97 0x61 ++ [0xE0, 0xA0, 0x80])).text = List.replicate 97 0x61 := by
  decide +kernel

end Name
end BoundedRecords
