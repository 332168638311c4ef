import Mathlib.Data.List.Forall2
import BoundedRecords.Proofs.Record.Batch

/-! A batch is its records made one by one, and a rollback where that stops early. This holds on every allocator;
on a budget the rollback restores the bytes in use exactly, from whatever was in use before. -/
namespace BoundedRecords

namespace Factory

variable {σ : Type}

/-- Single creations in order, up to the first that makes no record: the records made and how it ended. -/
def createEach (A : Allocator σ) : List PersonInput → σ → List Person × Outcome σ Unit
  | [], s => ([], .done () s)
  | i :: inputs, s =>
    match create A i.name i.age s with
    | .done p s =>
      let (people, ending) := createEach A inputs s
      (p :: people, ending)
    | .refused e s => ([], .refused e s)
    | .broken e s => ([], .broken e s)

/-- What a batch makes of single creations. -/
def settle (A : Allocator σ) (people : List Person) : Outcome σ Unit → Outcome σ (List Person)
  | .done _ s => .done people s
  | .refused e s => .refused e (releaseAll A people s)
  | .broken e s => .broken e s

theorem createOnto_eq_settle (A : Allocator σ) (made : List Person) (inputs : List PersonInput) (s : σ) :
    createOnto A made inputs s =
      settle A (made.reverse ++ (createEach A inputs s).1) (createEach A inputs s).2 := by
  induction inputs generalizing made s with
  | nil => simp only [createOnto, createEach, settle, List.append_nil]
  | cons i inputs ih =>
    -- A batch stops where the single creations do, and then has what they have made.
    simp only [createOnto, createEach]
    cases create A i.name i.age s with
    | done p t => simp only [ih, List.reverse_cons, List.append_assoc, List.singleton_append]
    | refused e t => simp only [settle, List.append_nil]
    | broken e t => rfl

theorem createAll_eq_settle (A : Allocator σ) (inputs : List PersonInput) (s : σ) :
    createAll A inputs s = settle A (createEach A inputs s).1 (createEach A inputs s).2 :=
  createOnto_eq_settle A [] inputs s

theorem createAll_eq_done_iff (A : Allocator σ) (inputs : List PersonInput) (s t : σ) (people : List Person) :
    createAll A inputs s = .done people t ↔ createEach A inputs s = (people, .done () t) := by
  rw [createAll_eq_settle]
  obtain ⟨made, ending⟩ := createEach A inputs s
  cases ending <;> simp [settle]

end Factory

structure MadeFor (i : PersonInput) (p : Person) : Prop where
  name : p.name = Name.new i.name
  age : p.age = i.age
  score : p.score = 0
  held : p.released = false

theorem madeFor_records (inputs : List PersonInput) : List.Forall₂ MadeFor inputs (inputs.map PersonInput.record) := by
  induction inputs with
  | nil => exact .nil
  | cons i inputs ih => exact .cons ⟨rfl, rfl, rfl, rfl⟩ ih

namespace Budget

/-- A batch on a budget gives all its records, as single creations would, or leaves the budget as it was. -/
theorem batch_all_or_nothing {b : Budget} (sound : b.Sound) (inputs : List PersonInput)
    (fits : b.used.toInt + inputs.length * Person.size.toInt < 2 ^ 63) :
    let batch := Factory.createAll allocator inputs b
    let need := b.used.toInt + inputs.length * Person.size.toInt
    (batch.granted = true ↔ need ≤ b.limit.toInt) ∧
    (need ≤ b.limit.toInt → ∃ people b', batch = .done people b' ∧
      Factory.createEach allocator inputs b = (people, .done () b') ∧
      List.Forall₂ MadeFor inputs people ∧ b'.limit = b.limit ∧ b'.used.toInt = need) ∧
    (b.limit.toInt < need → ∃ e, batch = .refused e b) := by
  intro batch need
  have nonneg := sound.nonneg
  have needed : need = b.used.toInt + 136 * inputs.length := by
    simp only [need, Person.size_toInt]
    omega
  have granted : need ≤ b.limit.toInt → batch = .done (inputs.map PersonInput.record) (b.holding need) := by
    intro room
    rw [needed]
    exact createAll_granted sound inputs (needed ▸ room)
  have refused : b.limit.toInt < need → ∃ e, batch = .refused e b := by
    intro full
    exact createAll_refused sound inputs (needed ▸ fits) (needed ▸ full)
  refine ⟨⟨?_, ?_⟩, ?_, refused⟩
  · intro succeeded
    apply Int.not_lt.mp
    intro full
    obtain ⟨e, failed⟩ := refused full
    rw [failed] at succeeded
    cases succeeded
  · intro room
    rw [granted room]
    rfl
  · intro room
    refine ⟨_, _, granted room, ?_, madeFor_records inputs, rfl, used_holding b (by omega) room⟩
    exact (Factory.createAll_eq_done_iff _ _ _ _ _).mp (granted room)

/-- Seven hundred bytes in use that are no records, and room for two records beside them: a third is rolled back
without touching those bytes. -/
theorem batch_all_or_nothing_beside_others :
    let b : Budget := ⟨1000, 700⟩
    let two : List PersonInput := [⟨[0x41], 1⟩, ⟨[], -2⟩]
    b.Sound ∧
    (∃ people b', Factory.createAll allocator two b = .done people b' ∧ List.Forall₂ MadeFor two people ∧
      b'.used.toInt = 700 + 2 * 136) ∧
    ∃ e, Factory.createAll allocator (two ++ [⟨[0x43], 3⟩]) b = .refused e b := by
  intro b two
  have sound : b.Sound := ⟨by decide, by decide⟩
  obtain ⟨_, succeeds, _⟩ := batch_all_or_nothing sound two (by decide)
  obtain ⟨_, _, fails⟩ := batch_all_or_nothing sound (two ++ [⟨[0x43], 3⟩]) (by decide)
  obtain ⟨people, b', done, _, made, _, used⟩ := succeeds (by decide)
  exact ⟨sound, ⟨people, b', done, made, used.trans (by decide)⟩, fails (by decide)⟩

end Budget
end BoundedRecords
