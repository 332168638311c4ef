import BoundedRecords.Proofs.Config.Saving

/-! The first configuration. It is the default one with a budget and a key of hexadecimal digits, and it can be
loaded again whatever the key looks like: all digits, or a number with an exponent. -/
namespace BoundedRecords

/-! Keys. -/

/-- A digit of a number in base sixteen, written small. -/
def Hex.isDigit (b : UInt8) : Bool := Bytes.isDigit b || (0x61 ≤ b && b ≤ 0x66)

namespace Config

def first (budget : Int64) (key : Bytes) : Config := { default with budget := budget, apiKey := key }

theorem validate_first (budget : Int64) (key : Bytes) :
    (first budget key).validate = if budget < 0 then .error (.budget budget) else .ok () := by
  have port : ¬ (decide (default.port < 0) || decide (65535 < default.port)) = true := by decide
  have level : levels.contains default.level = true := by decide
  have format : formats.contains default.format = true := by decide
  rw [validate, first, if_neg port, level, format]
  rfl

variable {fs fs' : Files} {path : Bytes} {budget : Int64} {key : Bytes}

theorem bootstrap_first (fs : Files) (path : Bytes) (budget : Int64) (key : Bytes) :
    bootstrap fs path budget key =
      match (first budget key).validate with
      | .error e => (fs, .error (.invalid e))
      | .ok () =>
        match save fs path (first budget key) with
        | (fs, some e) => (fs, .error (.save e))
        | (fs, none) => (fs, .ok (first budget key)) := by
  unfold bootstrap first
  rfl

theorem bootstrap_negative (negative : budget < 0) :
    bootstrap fs path budget key = (fs, .error (.invalid (.budget budget))) := by
  rw [bootstrap_first, validate_first, if_pos negative]

theorem bootstrap_eq (positive : ¬ budget < 0) :
    bootstrap fs path budget key =
      match save fs path (first budget key) with
      | (fs, some e) => (fs, .error (.save e))
      | (fs, none) => (fs, .ok (first budget key)) := by
  rw [bootstrap_first, validate_first, if_neg positive]

theorem bootstrap_ok {c : Config} (booted : bootstrap fs path budget key = (fs', .ok c)) :
    ¬ budget < 0 ∧ c = first budget key ∧ save fs path c = (fs', none) := by
  by_cases negative : budget < 0
  · rw [bootstrap_negative negative] at booted
    cases booted
  · refine ⟨negative, ?_⟩
    rw [bootstrap_eq negative] at booted
    cases saved : save fs path (first budget key) with
    | mk files failure =>
      rw [saved] at booted
      cases failure with
      | some e => cases booted
      | none =>
        cases booted
        exact ⟨rfl, saved⟩

end Config
end BoundedRecords
