import BoundedRecords.Proofs.Storage.Accounting
import BoundedRecords.Record.Person

/-! Records on a budget. Making, releasing and rolling back move the bytes in use by whole records, and
the clamp of a return is never reached while every record on the way is still held. -/
namespace BoundedRecords

def PersonInput.record (i : PersonInput) : Person := ⟨Name.new i.name, i.age, 0, some .factory⟩

def Unreleased (people : List Person) : Prop := ∀ p ∈ people, p.owner = some .factory

theorem unreleased_nil : Unreleased [] := by
  intro p member
  cases member

theorem unreleased_reverse {people : List Person} (held : Unreleased people) : Unreleased people.reverse :=
  fun p member => held p (List.mem_reverse.mp member)

theorem unreleased_cons {p : Person} {people : List Person} (first : p.owner = some .factory)
    (rest : Unreleased people) : Unreleased (p :: people) := by
  intro q member
  rcases List.mem_cons.mp member with rfl | member
  · exact first
  · exact rest q member

theorem unreleased_of_cons {p : Person} {people : List Person} (held : Unreleased (p :: people)) :
    p.owner = some .factory ∧ Unreleased people :=
  ⟨held p (List.mem_cons_self ..), fun q member => held q (List.mem_cons_of_mem p member)⟩

theorem unreleased_records (inputs : List PersonInput) : Unreleased (inputs.map PersonInput.record) := by
  intro p member
  obtain ⟨i, _, rfl⟩ := List.mem_map.mp member
  rfl

theorem Person.size_toInt : Person.size.toInt = 136 := by decide

namespace Budget

theorem create_eq {b : Budget} (sound : b.Sound) (fits : b.used.toInt + 136 < 2 ^ 63) (i : PersonInput) :
    Factory.create allocator i.name i.age b =
      if b.used.toInt + 136 ≤ b.limit.toInt then .done i.record (b.holding (b.used.toInt + 136))
      else .refused (.shortage Person.size (some (b.exhausted Person.size))) b := by
  have size := Person.size_toInt
  have positive : 0 < Person.size.toInt := by omega
  have decided := allocate_eq sound positive (by omega)
  rw [size] at decided
  simp only [Factory.create, allocator, decided]
  by_cases room : b.used.toInt + 136 ≤ b.limit.toInt
  · simp only [if_pos room]
    rfl
  · simp only [if_neg room]

theorem release_eq {b : Budget} (sound : b.Sound) {p : Person} (owned : p.owner = some .factory)
    (held : 136 ≤ b.used.toInt) :
    p.release allocator b = ({ p with owner := none }, b.holding (b.used.toInt - 136)) := by
  have size := Person.size_toInt
  have positive : 0 < Person.size.toInt := by omega
  have rest : max (b.used.toInt - Person.size.toInt) 0 = b.used.toInt - 136 := by omega
  simp only [Person.release, owned, allocator, free_eq sound positive, rest]

theorem releaseAll_eq {b : Budget} (sound : b.Sound) {people : List Person} (owned : Unreleased people)
    (held : 136 * (people.length : Int) ≤ b.used.toInt) :
    Factory.releaseAll allocator people b = b.holding (b.used.toInt - 136 * people.length) := by
  induction people generalizing b with
  | nil => simp only [Factory.releaseAll, List.length_nil, Int.ofNat_zero, Int.mul_zero, Int.sub_zero,
      holding_used_self]
  | cons p people ih =>
    simp only [List.length_cons, Int.natCast_add, Int.ofNat_one] at held ⊢
    have within := sound.within
    obtain ⟨first, rest⟩ := unreleased_of_cons owned
    have freed := release_eq sound first (by omega)
    have used := used_holding b (n := b.used.toInt - 136) (by omega) (by omega)
    have later := ih (sound_holding b (n := b.used.toInt - 136) (by omega) (by omega)) rest (by omega)
    rw [Factory.releaseAll, freed, later, used, holding_holding]
    congr 1
    omega

theorem releaseAll_restores {b : Budget} (sound : b.Sound) {people : List Person} (owned : Unreleased people)
    (room : b.used.toInt + 136 * people.length ≤ b.limit.toInt) :
    Factory.releaseAll allocator people (b.holding (b.used.toInt + 136 * people.length)) = b := by
  have nonneg := sound.nonneg
  have used := b.used_holding (by omega) room
  rw [releaseAll_eq (b.sound_holding (by omega) room) owned (by omega), used,
    holding_holding]
  have rest : b.used.toInt + 136 * (people.length : Int) - 136 * people.length = b.used.toInt := by omega
  rw [rest, holding_used_self]

/-- The loop of a batch, after `made` records of it. The rollback gives back all of them and no more. -/
theorem createOnto_eq {b : Budget} (sound : b.Sound) {made : List Person} (owned : Unreleased made)
    (held : 136 * (made.length : Int) ≤ b.used.toInt) (inputs : List PersonInput)
    (fits : b.used.toInt + 136 * inputs.length < 2 ^ 63) :
    (b.used.toInt + 136 * inputs.length ≤ b.limit.toInt →
      Factory.createOnto allocator made inputs b =
        .done (made.reverse ++ inputs.map PersonInput.record)
          (b.holding (b.used.toInt + 136 * inputs.length))) ∧
    (b.limit.toInt < b.used.toInt + 136 * inputs.length →
      ∃ e, Factory.createOnto allocator made inputs b =
        .refused e (b.holding (b.used.toInt - 136 * made.length))) := by
  have nonneg := sound.nonneg
  have within := sound.within
  induction inputs generalizing b made with
  | nil =>
    simp only [Factory.createOnto, List.length_nil, Int.ofNat_zero, Int.mul_zero, Int.add_zero,
      holding_used_self, List.map_nil, List.append_nil, implies_true, true_and]
    intro full
    omega
  | cons i inputs ih =>
    simp only [List.length_cons, Int.natCast_add, Int.ofNat_one] at fits ⊢
    have decided := create_eq sound (by omega) i
    by_cases room : b.used.toInt + 136 ≤ b.limit.toInt
    · rw [if_pos room] at decided
      have used := used_holding b (n := b.used.toInt + 136) (by omega) room
      have grown : Unreleased (i.record :: made) := unreleased_cons rfl owned
      have rest := ih (sound_holding b (by omega) room) grown
        (by rw [used, List.length_cons]; omega) (by rw [used]; omega) (by omega) (by rw [used]; exact room)
      simp only [used, holding_limit, holding_holding, List.length_cons, Int.natCast_add,
        Int.ofNat_one, List.reverse_cons, List.append_assoc, List.singleton_append] at rest
      simp only [Factory.createOnto, decided, List.map_cons]
      constructor
      · intro enough
        rw [rest.1 (by omega)]
        congr 2
        omega
      · intro full
        obtain ⟨e, refused⟩ := rest.2 (by omega)
        refine ⟨e, refused.trans ?_⟩
        congr 2
        omega
    · rw [if_neg room] at decided
      have freed := releaseAll_eq sound (unreleased_reverse owned) (by rw [List.length_reverse]; exact held)
      simp only [Factory.createOnto, decided, freed, List.length_reverse]
      refine ⟨fun enough => ?_, fun _ => ⟨_, rfl⟩⟩
      omega

theorem createAll_granted {b : Budget} (sound : b.Sound) (inputs : List PersonInput)
    (room : b.used.toInt + 136 * inputs.length ≤ b.limit.toInt) :
    Factory.createAll allocator inputs b =
      .done (inputs.map PersonInput.record) (b.holding (b.used.toInt + 136 * inputs.length)) := by
  have nonneg := sound.nonneg
  have top := b.limit.toInt_lt
  exact (createOnto_eq sound unreleased_nil (by simpa using nonneg) inputs (by omega)).1 room

theorem createAll_refused {b : Budget} (sound : b.Sound) (inputs : List PersonInput)
    (fits : b.used.toInt + 136 * inputs.length < 2 ^ 63)
    (full : b.limit.toInt < b.used.toInt + 136 * inputs.length) :
    ∃ e, Factory.createAll allocator inputs b = .refused e b := by
  have nonneg := sound.nonneg
  obtain ⟨e, refused⟩ := (createOnto_eq sound unreleased_nil (by simpa using nonneg) inputs fits).2 full
  refine ⟨e, refused.trans ?_⟩
  simp only [List.length_nil, Int.ofNat_zero, Int.mul_zero, Int.sub_zero, holding_used_self]

end Budget
end BoundedRecords
