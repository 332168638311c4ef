import BoundedRecords.Proofs.Command.Dispatch
import BoundedRecords.Proofs.Config.Bootstrap

/-! Writing a first configuration. The command either comes to nothing, and then no file has changed, or leaves a
file that is loaded as the configuration it speaks of. -/
namespace BoundedRecords.Command

variable {σ : Type}

/-- The path that a configuration is written to. -/
def initPath (S : Surroundings σ) (a : Arguments) : Bytes :=
  let given := (a.text? "config").getD []
  if given.isEmpty then S.defaultPath else given

def initBudget (a : Arguments) : Int64 := (a.number? "budget").getD 0

section

variable {S : Surroundings σ} {fs : Files} {a : Arguments}

theorem initialise_present (there : fs.mayExist (initPath S a) = true) (careful : a.switch "force" = false) :
    initialise S fs a = (fs, [], some (.present (initPath S a))) := by
  have refused : (fs.mayExist (initPath S a) && !a.switch "force") = true := by
    rw [there, careful]
    rfl
  exact if_pos refused

theorem initialise_bootstrap (free : ¬ (fs.mayExist (initPath S a) = true ∧ a.switch "force" = false)) :
    (initialise S fs a).1 = (Config.bootstrap fs (initPath S a) (initBudget a) S.key).1 ∧
      ((initialise S fs a).2.2 = none ↔
        ∃ c, (Config.bootstrap fs (initPath S a) (initBudget a) S.key).2 = .ok c) := by
  have open_ : ¬ (fs.mayExist (initPath S a) && !a.switch "force") = true := by simpa using free
  have path : initPath S a = if ((a.text? "config").getD []).isEmpty then S.defaultPath else (a.text? "config").getD [] := rfl
  have budget : initBudget a = (a.number? "budget").getD 0 := rfl
  simp only [initialise, ← path, ← budget, if_neg open_]
  split
  · rename_i failed
    simp [failed]
  · rename_i done
    simp [done]

theorem initialise_done (succeeded : (initialise S fs a).2.2 = none) :
    Config.bootstrap fs (initPath S a) (initBudget a) S.key =
      ((initialise S fs a).1, .ok (Config.first (initBudget a) S.key)) := by
  by_cases refused : fs.mayExist (initPath S a) = true ∧ a.switch "force" = false
  · rw [initialise_present refused.1 refused.2] at succeeded
    cases succeeded
  · obtain ⟨files, done⟩ := initialise_bootstrap refused
    obtain ⟨c, ok⟩ := done.mp succeeded
    have booted : Config.bootstrap fs (initPath S a) (initBudget a) S.key = ((initialise S fs a).1, .ok c) :=
      Prod.ext files.symm ok
    obtain ⟨_, rfl, _⟩ := Config.bootstrap_ok booted
    exact booted

end

/-- Random bytes whose key reads as a number with an exponent. -/
def exponentBytes (n : Nat) : Bytes := 0x1E :: List.replicate (n - 1) 0x55

def inDirectory : Surroundings Unit where
  home := []
  provide := none
  key := Hex.ofBytes (exponentBytes Config.keyBytes)
  outputFault := none
  serve := fun _ => none

end BoundedRecords.Command
