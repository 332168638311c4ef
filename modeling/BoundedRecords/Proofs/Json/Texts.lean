import BoundedRecords.Proofs.Json.Soundness

/-! Whole texts. Reading a text to its end gives its value exactly if the text is one of the grammar, and
a value is found at the start of a longer text if what follows cannot belong to it. -/
namespace BoundedRecords.Json

theorem run_append (r : Reader) (s more : Bytes) :
    run r (s ++ more) =
      match run r s with
      | .value v rest => .value v (rest ++ more)
      | .wrong => .wrong
      | .short r' => run r' more := by
  induction s generalizing r with
  | nil => rfl
  | cons b s ih =>
    simp only [List.cons_append, run]
    cases step r b with
    | next r' => exact ih r'
    | closed v => rfl
    | before v => rfl
    | wrong => rfl

theorem start_reads : Reads [] start := Context.outside white_nil

theorem run_start_begins {s rest : Bytes} {v : Json} (found : run start s = .value v rest) :
    ∃ t, Begins v t ∧ s = t ++ rest := by
  have reads := run_reads (s := s) start_reads
  rw [found] at reads
  exact reads

theorem atEnd_eq_some_iff {r : Reader} {v : Json} : atEnd r = some v ↔ step r 0x20 = .before v := by
  unfold atEnd
  cases step r 0x20 <;> simp

theorem begins_of_atEnd {r : Reader} {s : Bytes} {v : Json} (short : run start s = .short r)
    (ended : atEnd r = some v) : Begins v s := by
  have reads := run_reads (s := s) start_reads
  rw [short] at reads
  have sound := step_reads reads 0x20
  rw [atEnd_eq_some_iff.mp ended] at sound
  exact sound

theorem run_begins {v : Json} {t : Bytes} (begins : Begins v t) {b : UInt8} (delimits : Delimits b) (s : Bytes) :
    run start (t ++ b :: s) = .value v (b :: s) := by
  obtain ⟨w, u, white, spelled, rfl⟩ := begins
  have accepts : Accepts maxDepth u (.value v) := spelled_accepts spelled
  rw [List.append_assoc, start, run_white rfl white, accepts [] b s (by simp) delimits]
  rfl

/-- A value that ends with the text is found there, or the reader is left at its end. -/
theorem run_begins_all {v : Json} {t : Bytes} (begins : Begins v t) :
    run start t = .value v [] ∨ ∃ r, run start t = .short r ∧ atEnd r = some v := by
  -- A blank behind the text ends the value in any case.
  have ended := run_begins begins (.inl (by decide) : Delimits 0x20) []
  rw [run_append] at ended
  cases found : run start t with
  | value v' rest =>
    simp only [found, Result.value.injEq] at ended
    obtain ⟨rfl, after⟩ := ended
    have none : rest = [] := List.append_left_eq_self.mp after
    exact .inl (by rw [none])
  | wrong => simp [found] at ended
  | short r =>
    simp only [found, run] at ended
    refine .inr ⟨r, rfl, atEnd_eq_some_iff.mpr ?_⟩
    revert ended
    cases step r 0x20 <;> simp

theorem all_isSpace_iff (w : Bytes) : w.all isSpace = true ↔ White w := List.all_eq_true

/-- The reader accepts the texts of the grammar and no others. -/
theorem parse_eq_some_iff (s : Bytes) (v : Json) : parse s = some v ↔ Text v s := by
  unfold parse
  constructor
  · intro parsed
    split at parsed
    · rename_i v' rest found
      split at parsed
      · rename_i white
        cases parsed
        obtain ⟨t, begins, rfl⟩ := run_start_begins found
        exact ⟨t, rest, begins, (all_isSpace_iff rest).mp white, rfl⟩
      · cases parsed
    · rename_i r short
      exact ⟨s, [], begins_of_atEnd short parsed, white_nil, by rw [List.append_nil]⟩
    · cases parsed
  · rintro ⟨t, w, begins, white, rfl⟩
    cases w with
    | nil =>
      rw [List.append_nil]
      rcases run_begins_all begins with found | ⟨r, short, ended⟩
      · rw [found]
        rfl
      · rw [short]
        exact ended
    | cons b w =>
      rw [run_begins begins (.inl (white b List.mem_cons_self)) w]
      simp only [(all_isSpace_iff _).mpr white, if_true]

end BoundedRecords.Json
