import BoundedRecords.Proofs.Record.Batch
import BoundedRecords.Record.Register

/-! Storage is conserved over the life of records. A ledger is kept beside a register, from the steps
and their results alone: who made the record of each place, and whether it was released. The bytes in
use are those of the records that the ledger still shows as live, whatever was released twice, was
never made or belongs to the process. -/
namespace BoundedRecords.Register

/-- What a ledger says of one place: whether the factory made a record for it, and whether the place
was released since. -/
structure Line where
  made : Bool
  released : Bool
deriving DecidableEq, Repr

def Line.live (l : Line) : Bool := l.made && !l.released

abbrev Ledger := List Line

namespace Ledger

def live (ledger : Ledger) : Nat := ledger.countP Line.live

def liveAt (ledger : Ledger) : Int → Bool
  | .ofNat n => ledger[n]?.any Line.live
  | .negSucc _ => false

def release (index : Int) (ledger : Ledger) : Ledger :=
  match index with
  | .ofNat n => ledger.modify n fun l => { l with released := true }
  | .negSucc _ => ledger

/-- The ledger after a step, by whether the step succeeded. A single record that was refused leaves
an empty place. -/
def enter (succeeded : Bool) (ledger : Ledger) : Step → Ledger
  | .create _ => ledger ++ [⟨succeeded, false⟩]
  | .createOnProcess _ => ledger ++ [⟨false, false⟩]
  | .createAll inputs =>
    if succeeded then ledger ++ List.replicate inputs.length ⟨true, false⟩ else ledger
  | .release index => ledger.release index
  | .releaseAll indices => indices.foldl (fun ledger index => ledger.release index) ledger
  | .allocate _ => ledger
  | .free _ => ledger

end Ledger

/- The other steps use the allocator directly. -/
def Step.onRecords : Step → Bool
  | .allocate _ => false
  | .free _ => false
  | _ => true

def Step.attempts : Step → Nat
  | .create _ => 1
  | .createAll inputs => inputs.length
  | _ => 0

def attempts (steps : List Step) : Nat := (steps.map Step.attempts).sum

/-- Runs the steps one after another and keeps the ledger beside them. -/
def audit {σ : Type} (A : Allocator σ) : Register σ → Ledger → List Step → Register σ × Ledger
  | r, ledger, [] => (r, ledger)
  | r, ledger, s :: steps => audit A (r.run A s).1 (ledger.enter (r.run A s).2.isNone s) steps

/-! Places. A place is occupied while its record holds storage of the factory. -/

def occupied (place : Option Person) : Bool := place.any fun p => p.owner == some .factory

def marks {σ : Type} (r : Register σ) : List Bool := r.people.map occupied

def clear (index : Int) (marks : List Bool) : List Bool :=
  match index with
  | .ofNat n => marks.set n false
  | .negSucc _ => marks

theorem live_eq_count (ledger : Ledger) : ledger.live = (ledger.map Line.live).count true := by
  rw [Ledger.live, List.count, List.countP_map]
  congr 1
  funext l
  simp

theorem release_marks (index : Int) (ledger : Ledger) :
    (ledger.release index).map Line.live = clear index (ledger.map Line.live) := by
  cases index with
  | negSucc n => rfl
  | ofNat n =>
    simp only [Ledger.release, clear]
    induction ledger generalizing n with
    | nil => simp
    | cons l ledger ih =>
      cases n with
      | zero => simp [Line.live]
      | succ n => simp [ih n]

theorem liveAt_eq (ledger : Ledger) (n : Nat) :
    ledger.liveAt (.ofNat n) = ((ledger.map Line.live)[n]? == some true) := by
  simp only [Ledger.liveAt, List.getElem?_map]
  cases ledger[n]? <;> simp

theorem set_vacant {marks : List Bool} {n : Nat} (vacant : marks[n]? ≠ some true) :
    marks.set n false = marks := by
  by_cases inside : n < marks.length
  · have cleared : marks[n] = false := by simpa [List.getElem?_eq_getElem inside] using vacant
    rw [← cleared, List.set_getElem_self inside]
  · exact List.set_eq_of_length_le (Nat.le_of_not_lt inside)

theorem count_set_occupied {marks : List Bool} {n : Nat} (taken : marks[n]? = some true) :
    marks.count true = (marks.set n false).count true + 1 := by
  obtain ⟨inside, set⟩ := List.getElem?_eq_some_iff.mp taken
  have some_true : 0 < marks.count true :=
    List.count_pos_iff.mpr (set ▸ List.getElem_mem inside)
  rw [List.count_set inside, set]
  simp only [BEq.rfl, if_true, Bool.false_beq, Bool.not_true, Bool.false_eq_true, if_false]
  omega

theorem release_vacates {σ : Type} (A : Allocator σ) (p : Person) (s : σ) :
    occupied (some (p.release A s).1) = false := by
  unfold Person.release
  split
  · rename_i none
    simp [occupied, none]
  · simp [occupied]
  · simp [occupied]

theorem marks_get {σ : Type} (r : Register σ) (n : Nat) :
    r.marks[n]? = r.people[n]?.map occupied := by
  rw [marks, List.getElem?_map]

theorem releaseAt_marks {σ : Type} (A : Allocator σ) (index : Int) (r : Register σ) :
    (r.releaseAt A index).marks = clear index r.marks := by
  cases index with
  | negSucc n => rfl
  | ofNat n =>
    have place := marks_get r n
    simp only [releaseAt, get?, clear]
    rcases found : r.people[n]? with _ | _ | p
    · rw [set_vacant (by simp [place, found])]
      rfl
    · rw [set_vacant (by simp [place, found, occupied])]
      rfl
    · simp only [Option.join_some, marks, List.map_set, release_vacates]
      rfl

/- No record of the factory, no call on the allocator. -/
theorem releaseAt_vacant {σ : Type} (A : Allocator σ) (r : Register σ) {n : Nat}
    (vacant : r.marks[n]? ≠ some true) : (r.releaseAt A (.ofNat n)).state = r.state := by
  rw [marks_get] at vacant
  simp only [releaseAt, get?]
  rcases found : r.people[n]? with _ | _ | p
  · rfl
  · rfl
  · have other : p.owner ≠ some .factory := by simpa [found, occupied] using vacant
    simp only [Option.join_some, Person.release]
    split
    · rfl
    · rfl
    · contradiction

theorem releaseAt_occupied {r : Register Budget} (sound : r.state.Sound) {n : Nat}
    (taken : r.marks[n]? = some true) (held : 136 ≤ r.state.used.toInt) :
    (r.releaseAt Budget.allocator (.ofNat n)).state = r.state.holding (r.state.used.toInt - 136) := by
  rw [marks_get] at taken
  simp only [releaseAt, get?]
  rcases found : r.people[n]? with _ | _ | p
  · simp [found] at taken
  · simp [found, occupied] at taken
  · have owned : p.owner = some .factory := by simpa [found, occupied] using taken
    simp only [Option.join_some, Budget.release_eq sound owned held]

/-! Steps. -/

/-- What holds between a register and its ledger after every step. -/
structure Conserved (limit : Int64) (r : Register Budget) (ledger : Ledger) : Prop where
  limited : r.state.limit = limit
  sound : r.state.Sound
  marked : r.marks = ledger.map Line.live
  used : r.state.used.toInt = 136 * (ledger.live : Int)

theorem release_conserved {limit : Int64} {r : Register Budget} {ledger : Ledger}
    (h : Conserved limit r ledger) (index : Int) :
    Conserved limit (r.releaseAt Budget.allocator index) (ledger.release index) := by
  have marked : (r.releaseAt Budget.allocator index).marks = (ledger.release index).map Line.live := by
    rw [releaseAt_marks, release_marks, h.marked]
  have before := live_eq_count ledger
  have after := live_eq_count (ledger.release index)
  rw [← h.marked] at before
  rw [← marked, releaseAt_marks] at after
  have used := h.used
  cases index with
  | negSucc n => exact h
  | ofNat n =>
    by_cases taken : r.marks[n]? = some true
    · have fewer := count_set_occupied taken
      simp only [clear] at after
      have within := h.sound.within
      have state := releaseAt_occupied h.sound taken (by omega)
      have rest := r.state.used_holding (n := r.state.used.toInt - 136) (by omega) (by omega)
      refine ⟨?_, ?_, marked, ?_⟩
      · rw [state]
        exact h.limited
      · rw [state]
        exact r.state.sound_holding (by omega) (by omega)
      · rw [state, rest]
        omega
    · have same := set_vacant taken
      have state := releaseAt_vacant Budget.allocator r taken
      simp only [clear, same] at after
      refine ⟨?_, ?_, marked, ?_⟩
      · rw [state]
        exact h.limited
      · rw [state]
        exact h.sound
      · rw [state]
        omega

theorem releases_conserved {limit : Int64} {r : Register Budget} {ledger : Ledger}
    (h : Conserved limit r ledger) (indices : List Int) :
    Conserved limit (indices.foldl (fun r index => r.releaseAt Budget.allocator index) r)
      (indices.foldl (fun ledger index => ledger.release index) ledger) := by
  induction indices generalizing r ledger with
  | nil => exact h
  | cons index indices ih => exact ih (release_conserved h index)

theorem append_conserved {limit : Int64} {r : Register Budget} {ledger : Ledger}
    (h : Conserved limit r ledger) (places : List (Option Person)) (lines : Ledger)
    (marked : places.map occupied = lines.map Line.live)
    (room : r.state.used.toInt + 136 * lines.live ≤ r.state.limit.toInt) :
    Conserved limit ⟨r.state.holding (r.state.used.toInt + 136 * lines.live), r.people ++ places⟩
      (ledger ++ lines) := by
  have nonneg := h.sound.nonneg
  have used := h.used
  refine ⟨h.limited, r.state.sound_holding (by omega) room, ?_, ?_⟩
  · have old : r.people.map occupied = ledger.map Line.live := h.marked
    simp only [marks, List.map_append, old, marked]
  · have sum : (ledger ++ lines).live = ledger.live + lines.live := List.countP_append
    rw [r.state.used_holding (by omega) room, sum]
    omega

theorem append_vacant {limit : Int64} {r : Register Budget} {ledger : Ledger}
    (h : Conserved limit r ledger) (place : Option Person) (vacant : occupied place = false) :
    Conserved limit ⟨r.state, r.people ++ [place]⟩ (ledger ++ [⟨false, false⟩]) := by
  have within := h.sound.within
  have none : Ledger.live [⟨false, false⟩] = 0 := rfl
  have grown := append_conserved h [place] [⟨false, false⟩] (by simp [vacant, Line.live])
    (by rw [none]; omega)
  simpa only [none, Int.ofNat_zero, Int.mul_zero, Int.add_zero, Budget.holding_used_self] using grown

theorem run_create {r : Register Budget} (sound : r.state.Sound)
    (fits : r.state.used.toInt + 136 < 2 ^ 63) (i : PersonInput) :
    (r.state.used.toInt + 136 ≤ r.state.limit.toInt →
      r.run Budget.allocator (.create i) =
        (⟨r.state.holding (r.state.used.toInt + 136), r.people ++ [some i.record]⟩, none)) ∧
    (r.state.limit.toInt < r.state.used.toInt + 136 →
      ∃ e, r.run Budget.allocator (.create i) = (⟨r.state, r.people ++ [none]⟩, some (.inl e))) := by
  have decided := Budget.create_eq sound fits i
  constructor
  · intro room
    rw [if_pos room] at decided
    simp only [run, decided]
  · intro full
    rw [if_neg (Int.not_le.mpr full)] at decided
    exact ⟨.shortage Person.size (some (r.state.exhausted Person.size)), by simp only [run, decided]⟩

theorem run_createAll {r : Register Budget} (sound : r.state.Sound) (inputs : List PersonInput)
    (fits : r.state.used.toInt + 136 * inputs.length < 2 ^ 63) :
    (r.state.used.toInt + 136 * inputs.length ≤ r.state.limit.toInt →
      r.run Budget.allocator (.createAll inputs) =
        (⟨r.state.holding (r.state.used.toInt + 136 * inputs.length),
          r.people ++ (inputs.map PersonInput.record).map some⟩, none)) ∧
    (r.state.limit.toInt < r.state.used.toInt + 136 * inputs.length →
      ∃ e, r.run Budget.allocator (.createAll inputs) = (r, some (.inl e))) := by
  constructor
  · intro room
    simp only [run, Budget.createAll_granted sound inputs room]
  · intro full
    obtain ⟨e, refused⟩ := Budget.createAll_refused sound inputs fits full
    exact ⟨e, by simp only [run, refused]⟩

/-- One step on records keeps the books, provided that the sums it makes fit a word. -/
theorem run_conserved {limit : Int64} {r : Register Budget} {ledger : Ledger}
    (h : Conserved limit r ledger) (s : Step) (own : s.onRecords = true)
    (fits : r.state.used.toInt + 136 * s.attempts < 2 ^ 63) :
    Conserved limit (r.run Budget.allocator s).1
      (ledger.enter (r.run Budget.allocator s).2.isNone s) := by
  cases s with
  | create i =>
    have decided := run_create h.sound (by simpa [Step.attempts] using fits) i
    rcases Int.lt_or_le r.state.limit.toInt (r.state.used.toInt + 136) with full | room
    · obtain ⟨e, refused⟩ := decided.2 full
      rw [refused]
      exact append_vacant h none rfl
    · rw [decided.1 room]
      exact append_conserved h [some i.record] [⟨true, false⟩] rfl room
  | createOnProcess i => exact append_vacant h (some (Factory.createOnProcess i.name i.age)) rfl
  | createAll inputs =>
    have decided := run_createAll h.sound inputs fits
    rcases Int.lt_or_le r.state.limit.toInt (r.state.used.toInt + 136 * inputs.length) with full | room
    · obtain ⟨e, refused⟩ := decided.2 full
      rw [refused]
      exact h
    · have all : Ledger.live (List.replicate inputs.length ⟨true, false⟩) = inputs.length := by
        simp [Ledger.live, List.countP_replicate, Line.live]
      have marked : ((inputs.map PersonInput.record).map some).map occupied =
          (List.replicate inputs.length (⟨true, false⟩ : Line)).map Line.live := by
        simp only [List.map_map, List.map_replicate]
        exact List.map_eq_replicate_iff.mpr (fun i _ => rfl)
      have grown := append_conserved h _ _ marked (by rw [all]; exact room)
      rw [all] at grown
      rw [decided.1 room]
      exact grown
  | release index => exact release_conserved h index
  | releaseAll indices => exact releases_conserved h indices
  | allocate size => cases own
  | free size => cases own

theorem release_live_le (ledger : Ledger) (index : Int) : (ledger.release index).live ≤ ledger.live := by
  rw [live_eq_count, live_eq_count, release_marks]
  cases index with
  | negSucc n => exact Nat.le_refl _
  | ofNat n =>
    simp only [clear]
    by_cases taken : (ledger.map Line.live)[n]? = some true
    · have fewer := count_set_occupied taken
      omega
    · have same := set_vacant taken
      exact Nat.le_of_eq (by rw [same])

theorem enter_live_le (ledger : Ledger) (succeeded : Bool) (s : Step) :
    (ledger.enter succeeded s).live ≤ ledger.live + s.attempts := by
  cases s with
  | create i => cases succeeded <;> simp [Ledger.enter, Ledger.live, Line.live, Step.attempts]
  | createOnProcess i => simp [Ledger.enter, Ledger.live, Line.live]
  | createAll inputs =>
    cases succeeded <;>
      simp [Ledger.enter, Ledger.live, Line.live, Step.attempts, List.countP_replicate]
  | release index => exact Nat.le_add_right_of_le (release_live_le ledger index)
  | releaseAll indices =>
    apply Nat.le_add_right_of_le
    simp only [Ledger.enter]
    induction indices generalizing ledger with
    | nil => exact Nat.le_refl _
    | cons index indices ih => exact Nat.le_trans (ih _) (release_live_le ledger index)
  | allocate size => exact Nat.le_add_right _ _
  | free size => exact Nat.le_add_right _ _

/-- Whole runs: the live records never outnumber the attempts, which keeps every sum within a word. -/
theorem audit_conserved {limit : Int64} {r : Register Budget} {ledger : Ledger}
    (h : Conserved limit r ledger) (steps : List Step) (own : ∀ s ∈ steps, s.onRecords = true)
    (few : ledger.live + attempts steps < 2 ^ 55) :
    Conserved limit (audit Budget.allocator r ledger steps).1 (audit Budget.allocator r ledger steps).2 ∧
      (audit Budget.allocator r ledger steps).2.live ≤ ledger.live + attempts steps := by
  induction steps generalizing r ledger with
  | nil => exact ⟨h, Nat.le_refl _⟩
  | cons s steps ih =>
    have sum : attempts (s :: steps) = s.attempts + attempts steps := rfl
    have used := h.used
    have kept := run_conserved h s (own s (List.mem_cons_self ..)) (by omega)
    have grown := enter_live_le ledger (r.run Budget.allocator s).2.isNone s
    obtain ⟨conserved, bounded⟩ :=
      ih kept (fun s member => own s (List.mem_cons_of_mem _ member)) (by omega)
    exact ⟨conserved, by rw [audit]; omega⟩

theorem new_conserved (limit : Int64) : Conserved (Budget.new limit).limit ⟨Budget.new limit, []⟩ [] :=
  ⟨rfl, Budget.new_sound limit, rfl, Int64.toInt_zero⟩

/-- A step that succeeds with room and fails without it. -/
theorem succeeds_iff {failure : Option (Failure ⊕ Fault)} {need limit : Int}
    (granted : need ≤ limit → failure = none) (refused : limit < need → ∃ e, failure = some e) :
    failure = none ↔ need ≤ limit := by
  refine ⟨fun succeeded => ?_, granted⟩
  apply Int.not_lt.mp
  intro full
  obtain ⟨e, failed⟩ := refused full
  cases failed.symm.trans succeeded

theorem create_succeeds_iff {limit : Int64} {r : Register Budget} {ledger : Ledger}
    (h : Conserved limit r ledger) (few : ledger.live < 2 ^ 55) (i : PersonInput) :
    (r.run Budget.allocator (.create i)).2 = none ↔ 136 * ((ledger.live : Int) + 1) ≤ limit.toInt := by
  have used := h.used
  have decided := run_create h.sound (by omega) i
  rw [h.limited] at decided
  apply succeeds_iff
  · intro room
    rw [decided.1 (by omega)]
  · intro full
    obtain ⟨e, refused⟩ := decided.2 (by omega)
    exact ⟨.inl e, by rw [refused]⟩

theorem createAll_succeeds_iff {limit : Int64} {r : Register Budget} {ledger : Ledger}
    (h : Conserved limit r ledger) (inputs : List PersonInput)
    (few : ledger.live + inputs.length < 2 ^ 55) :
    (r.run Budget.allocator (.createAll inputs)).2 = none ↔
      136 * ((ledger.live : Int) + inputs.length) ≤ limit.toInt := by
  have used := h.used
  have decided := run_createAll h.sound inputs (by omega)
  rw [h.limited] at decided
  apply succeeds_iff
  · intro room
    rw [decided.1 (by omega)]
  · intro full
    obtain ⟨e, refused⟩ := decided.2 (by omega)
    exact ⟨.inl e, by rw [refused]⟩

theorem release_dead_keeps_state {limit : Int64} {r : Register Budget} {ledger : Ledger}
    (h : Conserved limit r ledger) {index : Int} (dead : ledger.liveAt index = false) :
    (r.run Budget.allocator (.release index)).1.state = r.state := by
  cases index with
  | negSucc n => rfl
  | ofNat n =>
    rw [liveAt_eq, ← h.marked] at dead
    exact releaseAt_vacant Budget.allocator r (by simpa using dead)

/-- The bytes in use are those of the live records after every run on a budget that nothing else uses,
and the next records are made exactly if they fit beside them. Every beginning of a run is a run, so
this holds after each step. -/
theorem storage_conserved (limit : Int64) (steps : List Step) (own : ∀ s ∈ steps, s.onRecords = true)
    (few : attempts steps < 2 ^ 55) :
    let (r, ledger) := audit Budget.allocator ⟨Budget.new limit, []⟩ [] steps
    r.state.limit = (Budget.new limit).limit ∧
    r.state.used.toInt = Person.size.toInt * ledger.live ∧
    r.state.used.toInt ≤ r.state.limit.toInt ∧
    (∀ i, (r.run Budget.allocator (.create i)).2 = none ↔
      Person.size.toInt * (ledger.live + 1) ≤ r.state.limit.toInt) ∧
    (∀ inputs, attempts steps + inputs.length < 2 ^ 55 →
      ((r.run Budget.allocator (.createAll inputs)).2 = none ↔
        Person.size.toInt * (ledger.live + inputs.length) ≤ r.state.limit.toInt)) ∧
    (∀ index, ledger.liveAt index = false →
      (r.run Budget.allocator (.release index)).1.state = r.state) := by
  have start : Ledger.live [] = 0 := rfl
  obtain ⟨conserved, bounded⟩ := audit_conserved (new_conserved limit) steps own (by omega)
  simp only [Person.size_toInt, conserved.limited]
  -- The attempts bound the live records, so no sum on the way comes near the end of the words.
  refine ⟨trivial, conserved.used, conserved.limited ▸ conserved.sound.within, ?_, ?_, ?_⟩
  · exact fun i => create_succeeds_iff conserved (by omega) i
  · exact fun inputs small => createAll_succeeds_iff conserved inputs (by omega)
  · exact fun index dead => release_dead_keeps_state conserved dead

/-- Room for two records: a batch of two beside a live record is rolled back, and releasing that record
twice, a record of the process and places that do not exist gives back one record's bytes. -/
theorem storage_conserved_mixed_run :
    let steps : List Step := [.create ⟨[0x41], 1⟩, .createOnProcess ⟨[0x42], 2⟩,
      .createAll [⟨[0x43], 3⟩, ⟨[0x44], 4⟩], .create ⟨[0x45], 5⟩, .releaseAll [0, 1, 0, 7, -1]]
    let (r, ledger) := audit Budget.allocator ⟨Budget.new 300, []⟩ [] steps
    attempts steps = 4 ∧ ledger.live = 1 ∧ r.state.used.toInt = Person.size.toInt * ledger.live ∧
      (r.run Budget.allocator (.create ⟨[0x46], 6⟩)).2 = none := by
  have h := storage_conserved 300 [.create ⟨[0x41], 1⟩, .createOnProcess ⟨[0x42], 2⟩,
    .createAll [⟨[0x43], 3⟩, ⟨[0x44], 4⟩], .create ⟨[0x45], 5⟩, .releaseAll [0, 1, 0, 7, -1]]
    (by decide) (by decide)
  exact ⟨by decide, by decide, h.2.1, (h.2.2.2.1 _).mpr (by decide)⟩

end BoundedRecords.Register
