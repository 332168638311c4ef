import Mathlib.Algebra.Order.Ring.Int
import BoundedRecords.Storage.Budget

/-! Budgets counted in whole numbers. A budget adds words of 64 bits before it compares them with its
limit, so a run of calls is accounted for truthfully exactly as long as no such sum leaves the words.
Nothing is assumed of the sizes: they may be negative, zero or as large as a word. -/
namespace BoundedRecords

def Outcome.granted {σ α : Type} : Outcome σ α → Bool
  | .done _ _ => true
  | .refused _ _ => false
  | .broken _ _ => false

namespace Budget

structure Sound (b : Budget) : Prop where
  nonneg : 0 ≤ b.used.toInt
  within : b.used.toInt ≤ b.limit.toInt

/-- The same limit with `n` bytes in use. -/
def holding (b : Budget) (n : Int) : Budget := { b with used := Int64.ofInt n }

@[simp] theorem holding_limit (b : Budget) (n : Int) : (b.holding n).limit = b.limit := rfl

@[simp] theorem holding_holding (b : Budget) (m n : Int) : (b.holding m).holding n = b.holding n := rfl

theorem holding_used_self (b : Budget) : b.holding b.used.toInt = b := by
  simp only [holding, Int64.ofInt_toInt]

theorem used_holding (b : Budget) {n : Int} (nonneg : 0 ≤ n) (within : n ≤ b.limit.toInt) :
    (b.holding n).used.toInt = n := by
  have top := b.limit.toInt_lt
  exact Int64.toInt_ofInt_of_le (by omega) (by omega)

theorem sound_holding (b : Budget) {n : Int} (nonneg : 0 ≤ n) (within : n ≤ b.limit.toInt) :
    (b.holding n).Sound := by
  have used := used_holding b nonneg within
  exact ⟨by omega, by rw [holding_limit]; omega⟩

theorem new_limit (limit : Int64) : (new limit).limit.toInt = max limit.toInt 0 := by
  have zero : (0 : Int64).toInt = 0 := Int64.toInt_zero
  simp only [new]
  split
  · rename_i negative
    rw [Int64.lt_iff_toInt_lt] at negative
    omega
  · rename_i positive
    rw [Int64.lt_iff_toInt_lt] at positive
    omega

theorem new_sound (limit : Int64) : (new limit).Sound := by
  have zero : (new limit).used.toInt = 0 := Int64.toInt_zero
  have top := new_limit limit
  exact ⟨by omega, by omega⟩

theorem available_eq {b : Budget} (sound : b.Sound) :
    b.available.toInt = b.limit.toInt - b.used.toInt := by
  have nonneg := sound.nonneg
  have within := sound.within
  have top := b.limit.toInt_lt
  rw [available, Int64.toInt_sub]
  exact Int.bmod_eq_of_le (by omega) (by omega)

theorem le_zero_iff (size : Int64) : size ≤ 0 ↔ size.toInt ≤ 0 := by
  rw [Int64.le_iff_toInt_le, Int64.toInt_zero]

theorem add_eq_ofInt (a b : Int64) : a + b = Int64.ofInt (a.toInt + b.toInt) := by
  rw [Int64.ofInt_add, Int64.ofInt_toInt, Int64.ofInt_toInt]

theorem allocate_eq {b : Budget} {size : Int64} (sound : b.Sound) (positive : 0 < size.toInt)
    (fits : b.used.toInt + size.toInt < 2 ^ 63) :
    allocate size b =
      if b.used.toInt + size.toInt ≤ b.limit.toInt then
        .done () (b.holding (b.used.toInt + size.toInt))
      else .refused (b.exhausted size) b := by
  have nonneg := sound.nonneg
  have sum : (b.used + size).toInt = b.used.toInt + size.toInt := by
    rw [Int64.toInt_add]
    exact Int.bmod_eq_of_le (by omega) (by omega)
  have valid : ¬ size ≤ 0 := by rw [le_zero_iff]; omega
  rw [allocate, if_neg valid]
  by_cases room : b.used.toInt + size.toInt ≤ b.limit.toInt
  · have granted : ¬ b.used + size > b.limit := by
      rw [gt_iff_lt, Int64.lt_iff_toInt_lt]
      omega
    rw [if_neg granted, if_pos room, holding, add_eq_ofInt]
  · have refused : b.used + size > b.limit := by
      rw [gt_iff_lt, Int64.lt_iff_toInt_lt]
      omega
    rw [if_pos refused, if_neg room]

/-- A request whose sum leaves the words is granted, and the bytes in use become negative. -/
theorem allocate_overflow {b : Budget} {size : Int64} (sound : b.Sound) (positive : 0 < size.toInt)
    (wraps : 2 ^ 63 ≤ b.used.toInt + size.toInt) :
    ∃ b', allocate size b = .done () b' ∧ b'.used.toInt < 0 := by
  have nonneg := sound.nonneg
  have within := sound.within
  have top := b.used.toInt_lt
  have most := size.toInt_lt
  have sum : (b.used + size).toInt = b.used.toInt + size.toInt - 2 ^ 64 := by
    rw [Int64.toInt_add, Int.bmod]
    omega
  have valid : ¬ size ≤ 0 := by rw [le_zero_iff]; omega
  have granted : ¬ b.used + size > b.limit := by
    rw [gt_iff_lt, Int64.lt_iff_toInt_lt]
    omega
  refine ⟨{ b with used := b.used + size }, ?_, ?_⟩
  · rw [allocate, if_neg valid, if_neg granted]
  · change (b.used + size).toInt < 0
    omega

theorem allocate_invalid (b : Budget) {size : Int64} (invalid : size.toInt ≤ 0) :
    allocate size b = .refused (Allocator.invalidSize size) b := by
  rw [allocate, if_pos ((le_zero_iff size).mpr invalid)]

theorem free_eq {b : Budget} {size : Int64} (sound : b.Sound) (positive : 0 < size.toInt) :
    free size b = b.holding (max (b.used.toInt - size.toInt) 0) := by
  have nonneg := sound.nonneg
  have top := b.used.toInt_lt
  have most := size.toInt_lt
  have difference : (b.used - size).toInt = b.used.toInt - size.toInt := by
    rw [Int64.toInt_sub]
    exact Int.bmod_eq_of_le (by omega) (by omega)
  have valid : ¬ size ≤ 0 := by rw [le_zero_iff]; omega
  rw [free, if_neg valid]
  by_cases more : b.used.toInt < size.toInt
  · have negative : b.used - size < 0 := by
      rw [Int64.lt_iff_toInt_lt, Int64.toInt_zero]
      omega
    have clamped : max (b.used.toInt - size.toInt) 0 = 0 := by omega
    rw [if_pos negative, clamped]
    rfl
  · have remaining : ¬ b.used - size < 0 := by
      rw [Int64.lt_iff_toInt_lt, Int64.toInt_zero]
      omega
    have exact_rest : max (b.used.toInt - size.toInt) 0 = (b.used - size).toInt := by omega
    rw [if_neg remaining, exact_rest, holding, Int64.ofInt_toInt]

theorem free_invalid (b : Budget) {size : Int64} (invalid : size.toInt ≤ 0) : free size b = b := by
  rw [free, if_pos ((le_zero_iff size).mpr invalid)]

/-! Runs of calls. A state is truthful if its numbers mean what they say, and a call is fair if it is
decided by them. -/

inductive Step where
  | allocate (size : Int64)
  | free (size : Int64)
deriving DecidableEq, Repr

def step (b : Budget) : Step → Outcome Budget Unit
  | .allocate size => allocate size b
  | .free size => .done () (free size b)

def Truthful (b : Budget) : Prop :=
  0 ≤ b.used.toInt ∧ b.used.toInt ≤ b.limit.toInt ∧
    b.available.toInt = b.limit.toInt - b.used.toInt

/-- A request of some bytes must be granted exactly if that many are left, and change nothing if not. -/
def Fair (b : Budget) : Step → Prop
  | .allocate size => 0 < size.toInt →
      ((allocate size b).granted = true ↔ size.toInt ≤ b.limit.toInt - b.used.toInt) ∧
      ((allocate size b).granted = false → (allocate size b).state.used = b.used)
  | .free _ => True

def SafeRun : Budget → List Step → Prop
  | b, [] => b.Truthful
  | b, s :: steps => b.Truthful ∧ b.Fair s ∧ SafeRun (b.step s).state steps

def Fits (b : Budget) : Step → Prop
  | .allocate size => 0 < size.toInt → b.used.toInt + size.toInt < 2 ^ 63
  | .free _ => True

def NoOverflow : Budget → List Step → Prop
  | _, [] => True
  | b, s :: steps => b.Fits s ∧ NoOverflow (b.step s).state steps

theorem truthful_of_sound {b : Budget} (sound : b.Sound) : b.Truthful :=
  ⟨sound.nonneg, sound.within, available_eq sound⟩

theorem step_sound {b : Budget} (sound : b.Sound) (s : Step) (fits : b.Fits s) :
    (b.step s).state.Sound := by
  have nonneg := sound.nonneg
  have within := sound.within
  cases s with
  | allocate size =>
    by_cases positive : 0 < size.toInt
    · simp only [step, allocate_eq sound positive (fits positive)]
      split
      · exact sound_holding b (by omega) (by assumption)
      · exact sound
    · simp only [step, allocate_invalid b (Int.not_lt.mp positive)]
      exact sound
  | free size =>
    by_cases positive : 0 < size.toInt
    · simp only [step, free_eq sound positive]
      exact sound_holding b (by omega) (by omega)
    · simp only [step, free_invalid b (Int.not_lt.mp positive)]
      exact sound

theorem step_fair {b : Budget} (sound : b.Sound) (s : Step) (fits : b.Fits s) : b.Fair s := by
  cases s with
  | free size => trivial
  | allocate size =>
    intro positive
    rw [allocate_eq sound positive (fits positive)]
    split
    · rename_i room
      simp only [Outcome.granted, Bool.true_eq_false, false_implies, and_true, true_iff]
      omega
    · rename_i full
      simp only [Outcome.granted, Outcome.state, Bool.false_eq_true, implies_true, and_true, false_iff]
      omega

theorem fits_of_fair {b : Budget} (sound : b.Sound) (s : Step) (fair : b.Fair s) : b.Fits s := by
  cases s with
  | free size => trivial
  | allocate size =>
    intro positive
    apply Int.not_le.mp
    intro wraps
    -- A sum that left the words is granted, and fairness would make that much available.
    obtain ⟨b', granted, _⟩ := allocate_overflow sound positive wraps
    have room := (fair positive).1.mp (by rw [granted]; rfl)
    have top := b.limit.toInt_lt
    omega

theorem safe_run_iff {b : Budget} (sound : b.Sound) (steps : List Step) :
    SafeRun b steps ↔ NoOverflow b steps := by
  induction steps generalizing b with
  | nil => exact ⟨fun _ => trivial, fun _ => truthful_of_sound sound⟩
  | cons s steps ih =>
    constructor
    · rintro ⟨_, fair, rest⟩
      have fits := fits_of_fair sound s fair
      exact ⟨fits, (ih (step_sound sound s fits)).mp rest⟩
    · rintro ⟨fits, rest⟩
      exact ⟨truthful_of_sound sound, step_fair sound s fits, (ih (step_sound sound s fits)).mpr rest⟩

theorem step_limit (b : Budget) (s : Step) : (b.step s).state.limit = b.limit := by
  cases s with
  | allocate size =>
    simp only [step, allocate]
    split
    · rfl
    · split <;> rfl
  | free size =>
    simp only [step, free, Outcome.state]
    split
    · rfl
    · split <;> rfl

theorem no_overflow_of_no_limit {b : Budget} (sound : b.Sound) (none : b.limit.toInt = 0)
    (steps : List Step) : NoOverflow b steps := by
  induction steps generalizing b with
  | nil => trivial
  | cons s steps ih =>
    have fits : b.Fits s := by
      cases s with
      | free size => trivial
      | allocate size =>
        intro _
        have within := sound.within
        have most := size.toInt_lt
        omega
    exact ⟨fits, ih (step_sound sound s fits) (by rw [step_limit, none])⟩

/-- Every budget of at least one byte has an unsafe run. -/
theorem every_run_safe_iff (limit : Int64) :
    (∀ steps, SafeRun (new limit) steps) ↔ limit.toInt ≤ 0 := by
  have top := new_limit limit
  have unused : (new limit).used.toInt = 0 := Int64.toInt_zero
  have sound := new_sound limit
  constructor
  · intro safe
    apply Int.not_lt.mp
    intro positive
    have one : (1 : Int64).toInt = 1 := by decide
    have largest : Int64.maxValue.toInt = 2 ^ 63 - 1 := Int64.toInt_maxValue
    have room : (new limit).used.toInt + (1 : Int64).toInt ≤ (new limit).limit.toInt := by omega
    have run := (safe_run_iff sound _).mp (safe [.allocate 1, .allocate Int64.maxValue])
    obtain ⟨_, wraps, _⟩ := run
    simp only [step, allocate_eq sound (by omega : 0 < (1 : Int64).toInt) (by omega), if_pos room,
      Outcome.state, Fits, used_holding (new limit) (by omega) room] at wraps
    omega
  · intro negative steps
    exact (safe_run_iff sound steps).mpr (no_overflow_of_no_limit sound (by omega) steps)

/-- From an unused budget a run is safe exactly if no requested sum leaves the words. -/
theorem safe_run_new_iff_no_overflow (limit : Int64) (steps : List Step) :
    SafeRun (new limit) steps ↔ NoOverflow (new limit) steps :=
  safe_run_iff (new_sound limit) steps

/-- One byte in use is enough for the largest request to be granted beyond any limit. -/
theorem largest_request_granted :
    ¬ SafeRun (new 100) [.allocate 1, .allocate Int64.maxValue] ∧
      (((new 100).step (.allocate 1)).state.step (.allocate Int64.maxValue)).granted = true ∧
      (((new 100).step (.allocate 1)).state.step (.allocate Int64.maxValue)).state.used =
        Int64.minValue := by
  refine ⟨?_, by decide, by decide⟩
  rintro ⟨_, _, _, _, truthful, _⟩
  exact absurd truthful (by decide)

end Budget
end BoundedRecords
