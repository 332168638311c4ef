import BoundedRecords.Proofs.Command.Dispatch
import BoundedRecords.Proofs.Config.ReadBack

/-! Sessions. A configuration that was found is valid, and stays so under a budget from the command line that is not
negative; with a valid configuration nothing keeps a session from beginning. -/
namespace BoundedRecords

theorem Config.validate_withBudget {c : Config} (valid : c.validate = .ok ()) {b : Int64} (positive : ¬ b < 0) :
    { c with budget := b }.validate = .ok () := by
  unfold validate at valid ⊢
  split at valid
  · cases valid
  split at valid
  · cases valid
  split at valid
  · cases valid
  rename_i port level format
  rw [if_neg port, if_neg level, if_neg format, if_neg positive]

theorem Config.validate_of_load {fs : Files} {path : Bytes} {c : Config} (loaded : load fs path = .ok c) :
    c.validate = .ok () := by
  unfold load at loaded
  split at loaded
  · cases loaded
  · simp only at loaded
    split at loaded
    · cases loaded
    · split at loaded
      · cases loaded
      · split at loaded
        · cases loaded
        · rename_i valid
          cases loaded
          exact valid

theorem Logger.new_ok {level format : Bytes} (level_ : level ∈ Config.levels) (format_ : format ∈ Config.formats)
    (verbose : Bool) : ∃ g, Logger.new level format verbose = .ok g := by
  have all : ∀ l ∈ Config.levels, ∀ f ∈ Config.formats, ∀ v, (Logger.new l f v).isOk = true := by decide
  have ok := all level level_ format format_ verbose
  cases made : Logger.new level format verbose with
  | error e =>
    rw [made] at ok
    cases ok
  | ok g => exact ⟨g, rfl⟩

namespace Command

theorem resolveConfig_valid {fs : Files} {standard given : Bytes} {c : Config}
    (resolved : resolveConfig fs standard given = .ok c) : c.validate = .ok () := by
  unfold resolveConfig at resolved
  split at resolved
  · exact Config.validate_of_load resolved
  · split at resolved
    · exact Config.validate_of_load resolved
    · cases resolved
      rfl

theorem Session.begin_ok {σ : Type} {S : Surroundings σ} {provide : Int64 → Maker σ × σ} (provided : S.provide = some provide)
    {fs : Files} {a : Arguments} {c : Config}
    (resolved : resolveConfig fs S.defaultPath ((a.text? "config").getD []) = .ok c) {b : Int64}
    (effective : b = (a.number? "budget").getD c.budget) (positive : ¬ b < 0) :
    ∃ logger, Session.begin S fs a = .ok ⟨{ c with budget := b }, logger, (provide b).1, (provide b).2⟩ := by
  have valid := Config.validate_withBudget (resolveConfig_valid resolved) positive
  obtain ⟨_, level, format, _⟩ := Config.of_validate valid
  obtain ⟨logger, made⟩ := Logger.new_ok level format (a.switch "verbose")
  refine ⟨logger, ?_⟩
  simp only [Session.begin, provided, resolved, pure_bind, ← effective, valid, made]
  rfl

end Command
end BoundedRecords
