import BoundedRecords.Command.Run
import BoundedRecords.Proofs.Files.Locations

/-! Which command a line runs. A line that gives a command arguments it takes runs that command; any other line
leaves the files alone. Telling an error changes nothing of what a command did. -/
namespace BoundedRecords

namespace Command

variable {σ : Type}

/-- All that went to the output. -/
def outputOf (writes : Writes) : Bytes := writes.flatMap fun w => if w.1 = .output then w.2 else []

/-- The line gives these arguments to a command, which runs. -/
structure Invokes (S : Surroundings σ) (line : List Bytes) (t : Topic) (a : Arguments) : Prop where
  read : ∃ rest, Topic.locate line = .ok (t, rest) ∧ Arguments.read (allFlags S.defaultPath t) rest = .ok a
  runs : t.runs = true
  plain : a.switch "help" = false
  words : wordError? t a.words = none

section

variable {S : Surroundings σ} {line rest : List Bytes} {t : Topic} {a : Arguments} (fs : Files)

/-- The command that a line runs, with its arguments. -/
def invoked? (S : Surroundings σ) (line : List Bytes) : Option (Topic × Arguments) := do
  let (t, rest) ← (Topic.locate line).toOption
  let a ← (Arguments.read (allFlags S.defaultPath t) rest).toOption
  if t.runs && !a.switch "help" && (wordError? t a.words).isNone then some (t, a) else none

theorem invokes_of_invoked? (invoked : invoked? S line = some (t, a)) : Invokes S line t a := by
  simp only [invoked?, Option.bind_eq_bind, Option.bind_eq_some_iff] at invoked
  obtain ⟨⟨t', rest⟩, located, a', read, runs⟩ := invoked
  split at runs
  · rename_i passed
    simp only [Bool.and_eq_true, Bool.not_eq_true', Option.isNone_iff_eq_none] at passed
    cases runs
    exact ⟨⟨rest, eq_ok_of_toOption located, eq_ok_of_toOption read⟩, passed.1.1, passed.1.2, passed.2⟩
  · cases runs

theorem run_located (located : Topic.locate line = .ok (t, rest)) :
    (run S fs line).files = (runTopic S fs t rest).files ∧ (run S fs line).error = (runTopic S fs t rest).error ∧
      (run S fs line).storage = (runTopic S fs t rest).storage ∧
      outputOf (run S fs line).writes = outputOf (runTopic S fs t rest).writes := by
  simp only [run, located]
  split
  · exact ⟨rfl, rfl, rfl, rfl⟩
  · refine ⟨rfl, rfl, rfl, ?_⟩
    have silent : outputOf (errorLine ‹_›) = [] := rfl
    rw [outputOf, List.flatMap_append, ← outputOf, ← outputOf, silent, List.append_nil]

theorem run_init (invoked : Invokes S line .init a) :
    (run S fs line).files = (initialise S fs a).1 ∧ (run S fs line).error = (initialise S fs a).2.2 := by
  obtain ⟨rest, located, read⟩ := invoked.read
  obtain ⟨files, error, _⟩ := run_located (S := S) fs located
  have ran : runTopic S fs .init rest = .plain (initialise S fs a).1 (initialise S fs a).2.1 (initialise S fs a).2.2 := by
    simp only [runTopic, read, invoked.plain, invoked.runs, invoked.words, Bool.not_true, Bool.or_self,
      Bool.false_eq_true, if_false, BEq.rfl, if_true]
  rw [files, error, ran]
  exact ⟨rfl, rfl⟩

theorem run_session {s : Session σ} (invoked : Invokes S line t a) (other : t ≠ .init)
    (begun : Session.begin S fs a = .ok s) :
    (run S fs line).error = (s.run S fs t a).error ∧ (run S fs line).storage = some (s.run S fs t a).storage ∧
      outputOf (run S fs line).writes = outputOf (s.run S fs t a).writes := by
  obtain ⟨rest, located, read⟩ := invoked.read
  obtain ⟨_, error, storage, output⟩ := run_located (S := S) fs located
  have elsewhere : (t == Topic.init) = false := beq_eq_false_iff_ne.mpr other
  rw [error, storage, output]
  simp only [runTopic, read, invoked.plain, invoked.runs, invoked.words, elsewhere, begun, Bool.not_true, Bool.or_self,
    Bool.false_eq_true, if_false, and_self]

end

end Command

end BoundedRecords
