import BoundedRecords.Proofs.Record.Cutting

/-! The buffer of a name is in canonical form: its text, then nothing but zero bytes. The text and its length are
found again by a search for the first zero byte, which never fails, and two names are the same if their texts are. -/
namespace BoundedRecords.Name

/-- The text, then zero bytes up to the end of the buffer, and at least one of them. -/
structure Canonical (n : Name) : Prop where
  padded : n.buffer = n.text ++ List.replicate (capacity - n.text.length) 0
  short : n.text.length ≤ maxLength

theorem new_canonical (s : Bytes) : Canonical (new s) := by
  constructor
  · rw [text_eq_truncate]
    rfl
  · rw [text_eq_truncate]
    exact truncate_short s

theorem length_eq (n : Name) : n.length = n.text.length := by
  have search : n.length ≤ n.buffer.length := List.findIdx_le_length
  have taken : n.text = n.buffer.take n.length := takeWhile_eq_take_idxOf n.buffer
  rw [taken, List.length_take_of_le search]

theorem text_free (n : Name) : 0 ∉ n.text := zero_not_mem_takeWhile n.buffer

theorem truncate_of_fits {p : Bytes} (free : 0 ∉ p) (short : p.length ≤ maxLength) : truncate p = p := by
  have whole : p.takeWhile (· != 0) = p := by simpa [text] using text_padded free 0
  simp only [truncate, whole, if_pos short]

namespace Canonical

variable {n m : Name}

theorem size (canonical : Canonical n) : n.buffer.length = capacity := by
  have short := canonical.short
  rw [canonical.padded, List.length_append, List.length_replicate]
  simp only [maxLength, capacity] at *
  omega

theorem zero_behind (canonical : Canonical n) {i : Nat} (behind : n.text.length ≤ i) (inside : i ≤ maxLength) :
    n.buffer[i]? = some 0 := by
  rw [canonical.padded, List.getElem?_append_right behind, List.getElem?_replicate]
  apply if_pos
  simp only [maxLength, capacity] at *
  omega

theorem new_text (canonical : Canonical n) : new n.text = n := by
  rw [new, truncate_of_fits n.text_free canonical.short, ← canonical.padded]

theorem eq_of_text (canonical : Canonical n) (other : Canonical m) (same : n.text = m.text) : n = m := by
  rw [← canonical.new_text, ← other.new_text, same]

theorem isEmpty_iff (canonical : Canonical n) : n.isEmpty = true ↔ n.text = [] := by
  constructor
  · intro empty
    rw [isEmpty, beq_iff_eq] at empty
    obtain ⟨rest, first⟩ := List.head?_eq_some_iff.mp empty
    simp [text, first]
  · intro none
    have zero := canonical.zero_behind (i := 0) (by simp [none]) (Nat.zero_le _)
    rw [isEmpty, List.head?_eq_getElem?, zero]
    rfl

end Canonical

theorem truncate_eq_nil_iff (s : Bytes) : truncate s = [] ↔ s.takeWhile (· != 0) = [] := by
  simp only [truncate]
  split
  · rfl
  · rename_i long
    have size := List.length_take_of_le (Nat.le_of_not_le long)
    constructor
    · intro none
      -- At most three bytes are dropped of the ninety-nine.
      rcases dropIncomplete_cases ((s.takeWhile (· != 0)).take maxLength) with same | ⟨u, cut, split⟩
      · rw [← same, none] at size
        cases size
      · have few := cut.length_le
        rw [← split, none, List.nil_append] at size
        simp only [maxLength, capacity] at size
        omega
    · intro none
      exact absurd (Nat.zero_le maxLength) (by rwa [none] at long)

theorem takeWhile_eq_nil_iff (s : Bytes) : s.takeWhile (· != 0) = [] ↔ s = [] ∨ s.head? = some 0 := by
  cases s with
  | nil => simp
  | cons b s => simp [List.takeWhile_cons]

/-- The buffer holds the text and then zero bytes, the text is found in it again, and it is the same for two texts
exactly if what is kept of them is the same. -/
theorem buffer_canonical (s : Bytes) :
    let n := new s
    (n.buffer.length = 100 ∧ (∃ k, n.buffer = n.text ++ List.replicate (k + 1) 0) ∧ n.buffer[99]? = some 0) ∧
    0 ∉ n.text ∧
    (n.length = n.text.length ∧ n.length ≤ 99 ∧ n.buffer[n.length]? = some 0) ∧
    (n.isEmpty = true ↔ s = [] ∨ s.head? = some 0) ∧
    new n.text = n ∧
    ∀ s', (new s').buffer = n.buffer ↔ (new s').text = n.text := by
  intro n
  have canonical : Canonical n := new_canonical s
  have short := canonical.short
  have size := n.length_eq
  refine ⟨⟨canonical.size, ?_, canonical.zero_behind short (Nat.le_refl _)⟩, n.text_free, ?_, ?_,
    canonical.new_text, ?_⟩
  · refine ⟨maxLength - n.text.length, canonical.padded.trans ?_⟩
    congr 2
    simp only [maxLength, capacity] at *
    omega
  · exact ⟨size, size ▸ short, canonical.zero_behind (Nat.le_of_eq size.symm) (size ▸ short)⟩
  · rw [canonical.isEmpty_iff, text_eq_truncate, truncate_eq_nil_iff, takeWhile_eq_nil_iff]
  · intro s'
    constructor
    · intro same
      rw [text, same]
      rfl
    · intro same
      rw [(new_canonical s').eq_of_text canonical same]

end BoundedRecords.Name
