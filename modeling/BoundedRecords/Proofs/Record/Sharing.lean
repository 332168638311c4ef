import BoundedRecords.Proofs.Record.Batch

/-! Batches of several clients on one allocator. Only a single call on the allocator is atomic: between
two calls of one client any number of calls of others may stand. A schedule names the client of each
step, so a statement for every schedule is one for every interleaving. -/
namespace BoundedRecords

/-- A client between two of its calls: making a batch, of which the latest record comes first; giving
back the records of a batch, either because it was served or because it was refused; or broken off. -/
inductive Client where
  | making (made : List Person) (inputs : List PersonInput)
  | returning (served : Bool) (people : List Person)
  | stopped (made : List Person)

namespace Client

def people : Client → List Person
  | .making made _ => made
  | .returning _ people => people
  | .stopped made => made

def held (c : Client) : Nat := c.people.length

def finished : Client → Bool
  | .returning _ [] => true
  | _ => false

def asks : Client → Bool
  | .making _ (_ :: _) => true
  | _ => false

/-- The next step of a client: one call on the allocator, or the return of a completed batch. -/
def step {σ : Type} (A : Allocator σ) : Client → σ → Client × σ
  | .making made [], s => (.returning true made.reverse, s)
  | .making made (i :: inputs), s =>
    match Factory.create A i.name i.age s with
    | .done p s => (.making (p :: made) inputs, s)
    | .refused _ s => (.returning false made.reverse, s)
    | .broken _ s => (.stopped made, s)
  | .returning served (p :: people), s => (.returning served people, (p.release A s).2)
  | c, s => (c, s)

/-! One client alone. Its steps, taken without interruption, are a batch as a whole. -/

inductive Alone {σ : Type} (A : Allocator σ) : Client → σ → Client → σ → Prop where
  | refl (c : Client) (s : σ) : Alone A c s c s
  | step {c d : Client} {s t : σ} : Alone A (c.step A s).1 (c.step A s).2 d t → Alone A c s d t

/-- The end that goes with the outcome of a batch: its records are in hand, or all were given back. -/
def EndsAs {σ : Type} (A : Allocator σ) (c : Client) (s : σ) : Outcome σ (List Person) → Prop
  | .done people t => Alone A c s (.returning true people) t
  | .refused _ t => Alone A c s (.returning false []) t
  | .broken _ t => ∃ made, Alone A c s (.stopped made) t

theorem endsAs_step {σ : Type} {A : Allocator σ} {c d : Client} {s t : σ} {outcome : Outcome σ (List Person)}
    (next : c.step A s = (d, t)) (rest : EndsAs A d t outcome) : EndsAs A c s outcome := by
  have first : (c.step A s).1 = d ∧ (c.step A s).2 = t := by simp only [next, and_self]
  obtain ⟨rfl, rfl⟩ := first
  cases outcome with
  | done people t => exact .step rest
  | refused e t => exact .step rest
  | broken e t =>
    obtain ⟨made, rest⟩ := rest
    exact ⟨made, .step rest⟩

theorem alone_returning {σ : Type} (A : Allocator σ) (served : Bool) (people : List Person) (s : σ) :
    Alone A (.returning served people) s (.returning served []) (Factory.releaseAll A people s) := by
  induction people generalizing s with
  | nil => exact .refl _ _
  | cons p people ih => exact .step (ih _)

theorem alone_making {σ : Type} (A : Allocator σ) (made : List Person) (inputs : List PersonInput) (s : σ) :
    EndsAs A (.making made inputs) s (Factory.createOnto A made inputs s) := by
  induction inputs generalizing made s with
  | nil => exact .step (.refl _ _)
  | cons i inputs ih =>
    cases created : Factory.create A i.name i.age s with
    | done p t =>
      have next : (Client.making made (i :: inputs)).step A s = (.making (p :: made) inputs, t) := by
        simp only [step, created]
      simp only [Factory.createOnto, created]
      exact endsAs_step next (ih (p :: made) t)
    | refused e t =>
      have next : (Client.making made (i :: inputs)).step A s = (.returning false made.reverse, t) := by
        simp only [step, created]
      simp only [Factory.createOnto, created]
      exact endsAs_step next (alone_returning A false made.reverse t)
    | broken e t =>
      have next : (Client.making made (i :: inputs)).step A s = (.stopped made, t) := by
        simp only [step, created]
      simp only [Factory.createOnto, created]
      exact endsAs_step next ⟨made, .refl _ _⟩

/-- A client that nobody interrupts makes its batch as a whole, and releases it as a whole. -/
theorem alone_runs_batch {σ : Type} (A : Allocator σ) (inputs : List PersonInput) (s : σ) :
    EndsAs A (.making [] inputs) s (Factory.createAll A inputs s) ∧
      ∀ people t, Alone A (.returning true people) t (.returning true []) (Factory.releaseAll A people t) :=
  ⟨alone_making A [] inputs s, alone_returning A true⟩

/-! Steps on a budget. -/

/-- The bytes in use follow the records that the client takes or gives back. -/
structure Moves (b : Budget) (c d : Client) (after : Budget) : Prop where
  limited : after.limit = b.limit
  sound : after.Sound
  used : after.used.toInt + 136 * (c.held : Int) = b.used.toInt + 136 * (d.held : Int)
  owned : Unreleased d.people

theorem moves_nothing {b : Budget} (sound : b.Sound) {c d : Client} (same : d.held = c.held)
    (owned : Unreleased d.people) : Moves b c d b :=
  ⟨rfl, sound, by rw [same], owned⟩

theorem moves_one_in {b : Budget} (sound : b.Sound) {c d : Client} (more : d.held = c.held + 1)
    (owned : Unreleased d.people) (room : b.used.toInt + 136 ≤ b.limit.toInt) :
    Moves b c d (b.holding (b.used.toInt + 136)) := by
  have nonneg := sound.nonneg
  refine ⟨rfl, b.sound_holding (by omega) room, ?_, owned⟩
  rw [b.used_holding (by omega) room]
  omega

theorem moves_one_out {b : Budget} (sound : b.Sound) {c d : Client} (fewer : c.held = d.held + 1)
    (owned : Unreleased d.people) (held : 136 ≤ b.used.toInt) :
    Moves b c d (b.holding (b.used.toInt - 136)) := by
  have within := sound.within
  refine ⟨rfl, b.sound_holding (by omega) (by omega), ?_, owned⟩
  rw [b.used_holding (by omega) (by omega)]
  omega

theorem step_moves {b : Budget} (sound : b.Sound) {c : Client} (owned : Unreleased c.people)
    (held : 136 * (c.held : Int) ≤ b.used.toInt) (fits : b.used.toInt + 136 < 2 ^ 63) :
    Moves b c (c.step Budget.allocator b).1 (c.step Budget.allocator b).2 := by
  match c with
  | .making made [] =>
    exact moves_nothing sound (List.length_reverse ..) (unreleased_reverse owned)
  | .making made (i :: inputs) =>
    have decided := Budget.create_eq sound fits i
    by_cases room : b.used.toInt + 136 ≤ b.limit.toInt
    · rw [if_pos room] at decided
      simp only [step, decided]
      exact moves_one_in sound rfl (unreleased_cons rfl owned) room
    · rw [if_neg room] at decided
      simp only [step, decided]
      exact moves_nothing sound (List.length_reverse ..) (unreleased_reverse owned)
  | .returning served [] => exact moves_nothing sound rfl owned
  | .returning served (p :: people) =>
    -- The client's own records are part of what is in use, so the return does not reach the clamp.
    have given : 136 ≤ b.used.toInt := by
      simp only [Client.held, Client.people, List.length_cons] at held
      omega
    obtain ⟨first, rest⟩ := unreleased_of_cons owned
    simp only [step, Budget.release_eq sound first given]
    exact moves_one_out sound rfl rest given
  | .stopped made => exact moves_nothing sound rfl owned

theorem step_held_le {σ : Type} (A : Allocator σ) (c : Client) (s : σ) :
    (c.step A s).1.held ≤ c.held + c.asks.toNat := by
  match c with
  | .making made [] => simp [step, held, people]
  | .making made (i :: inputs) =>
    simp only [step]
    split <;> simp [held, people, asks]
  | .returning served [] => exact Nat.le_refl _
  | .returning served (p :: people) => exact Nat.le_succ _
  | .stopped made => exact Nat.le_refl _

end Client

/-- An allocator and the clients that share it. -/
structure Shared (σ : Type) where
  state : σ
  clients : List Client

namespace Shared

def start {σ : Type} (s : σ) (batches : List (List PersonInput)) : Shared σ :=
  ⟨s, batches.map (Client.making [])⟩

def held {σ : Type} (x : Shared σ) : Nat := (x.clients.map Client.held).sum

/-- One client takes its next step. -/
def turn {σ : Type} (A : Allocator σ) (x : Shared σ) (i : Nat) : Shared σ :=
  match x.clients[i]? with
  | none => x
  | some c => ⟨(c.step A x.state).2, x.clients.set i (c.step A x.state).1⟩

def play {σ : Type} (A : Allocator σ) (x : Shared σ) (schedule : List Nat) : Shared σ :=
  schedule.foldl (turn A) x

/-- How often storage is asked for under a schedule. -/
def attempts {σ : Type} (A : Allocator σ) : Shared σ → List Nat → Nat
  | _, [] => 0
  | x, i :: schedule => (x.clients[i]?.any Client.asks).toNat + attempts A (x.turn A i) schedule

theorem held_set (clients : List Client) {i : Nat} {c : Client} (d : Client) (found : clients[i]? = some c) :
    ((clients.set i d).map Client.held).sum + c.held = (clients.map Client.held).sum + d.held := by
  induction clients generalizing i with
  | nil => cases found
  | cons e clients ih =>
    cases i with
    | zero =>
      cases found
      simp only [List.set_cons_zero, List.map_cons, List.sum_cons]
      omega
    | succ i =>
      have rest := ih found
      simp only [List.set_cons_succ, List.map_cons, List.sum_cons]
      omega

theorem held_le (clients : List Client) {c : Client} (member : c ∈ clients) :
    c.held ≤ (clients.map Client.held).sum := by
  induction clients with
  | nil => cases member
  | cons d clients ih =>
    simp only [List.map_cons, List.sum_cons]
    rcases List.mem_cons.mp member with rfl | member
    · omega
    · have rest := ih member
      omega

/-- What holds at every moment: all records in hand are unreleased, and nothing else is in use. -/
structure Balanced (limit : Int64) (x : Shared Budget) : Prop where
  limited : x.state.limit = limit
  sound : x.state.Sound
  owned : ∀ c ∈ x.clients, Unreleased c.people
  used : x.state.used.toInt = 136 * (x.held : Int)

theorem turn_balanced {limit : Int64} {x : Shared Budget} (h : Balanced limit x) (i : Nat)
    (fits : x.state.used.toInt + 136 < 2 ^ 63) : Balanced limit (x.turn Budget.allocator i) := by
  unfold turn
  split
  · exact h
  · rename_i c found
    have member := List.mem_of_getElem? found
    have used := h.used
    have part : c.held ≤ x.held := held_le x.clients member
    have moved := Client.step_moves h.sound (h.owned c member) (by omega) fits
    have sum := held_set x.clients (c.step Budget.allocator x.state).1 found
    refine ⟨moved.limited.trans h.limited, moved.sound, ?_, ?_⟩
    · intro d other
      rcases List.mem_or_eq_of_mem_set other with other | rfl
      · exact h.owned d other
      · exact moved.owned
    · have total : x.held = (x.clients.map Client.held).sum := rfl
      have change := moved.used
      simp only [held]
      omega

theorem turn_held_le {σ : Type} (A : Allocator σ) (x : Shared σ) (i : Nat) :
    (x.turn A i).held ≤ x.held + (x.clients[i]?.any Client.asks).toNat := by
  unfold turn
  split
  · exact Nat.le_add_right _ _
  · rename_i c found
    have sum := held_set x.clients (c.step A x.state).1 found
    have grown := Client.step_held_le A c x.state
    simp only [found, Option.any_some, held]
    omega

theorem play_balanced {limit : Int64} {x : Shared Budget} (h : Balanced limit x) (schedule : List Nat)
    (few : x.held + attempts Budget.allocator x schedule < 2 ^ 55) :
    Balanced limit (x.play Budget.allocator schedule) ∧
      (x.play Budget.allocator schedule).held ≤ x.held + attempts Budget.allocator x schedule := by
  induction schedule generalizing x with
  | nil => exact ⟨h, Nat.le_refl _⟩
  | cons i schedule ih =>
    have used := h.used
    have grown := turn_held_le Budget.allocator x i
    simp only [attempts] at few ⊢
    obtain ⟨balanced, bounded⟩ := ih (turn_balanced h i (by omega)) (by omega)
    exact ⟨balanced, Nat.le_trans bounded (by omega)⟩

theorem start_held {σ : Type} (s : σ) (batches : List (List PersonInput)) : (start s batches).held = 0 := by
  simp only [held, start]
  induction batches with
  | nil => rfl
  | cons batch batches ih => simpa [Client.held, Client.people] using ih

theorem start_balanced (limit : Int64) (batches : List (List PersonInput)) :
    Balanced (Budget.new limit).limit (start (Budget.new limit) batches) := by
  refine ⟨rfl, Budget.new_sound limit, ?_, ?_⟩
  · intro c member
    obtain ⟨batch, _, rfl⟩ := List.mem_map.mp member
    exact unreleased_nil
  · rw [start_held]
    exact Int64.toInt_zero

/-- A client that asks is sent into its rollback exactly if one more record would not fit. -/
theorem turn_refused_iff {limit : Int64} {x : Shared Budget} (h : Balanced limit x)
    (fits : x.state.used.toInt + 136 < 2 ^ 63) {i : Nat} {made : List Person} {input : PersonInput}
    {inputs : List PersonInput} (found : x.clients[i]? = some (.making made (input :: inputs))) :
    (x.turn Budget.allocator i).clients[i]? = some (.returning false made.reverse) ↔
      limit.toInt < 136 * ((x.held : Int) + 1) := by
  have used := h.used
  have inside : i < x.clients.length := (List.getElem?_eq_some_iff.mp found).1
  have decided := Budget.create_eq h.sound fits input
  rw [h.limited] at decided
  by_cases room : x.state.used.toInt + 136 ≤ limit.toInt
  · rw [if_pos room] at decided
    simp only [turn, found, Client.step, decided, List.getElem?_set_self inside]
    constructor
    · intro impossible
      cases impossible
    · intro full
      omega
  · rw [if_neg room] at decided
    simp only [turn, found, Client.step, decided, List.getElem?_set_self inside, true_iff]
    omega

theorem held_finished {clients : List Client} (finished : ∀ c ∈ clients, c.finished = true) :
    (clients.map Client.held).sum = 0 := by
  induction clients with
  | nil => rfl
  | cons c clients ih =>
    have rest := ih (fun d member => finished d (List.mem_cons_of_mem c member))
    have none : c.held = 0 := by
      have first := finished c (List.mem_cons_self ..)
      unfold Client.finished at first
      split at first
      · rfl
      · cases first
    simp only [List.map_cons, List.sum_cons, none, rest]

/-- Under every schedule the bytes in use are those of the records that the clients hold together,
within the limit; a client is refused only where one more would not fit; and nothing is in use once
every client has taken back or released its batch. -/
theorem batches_share_budget (limit : Int64) (batches : List (List PersonInput)) (schedule : List Nat)
    (few : attempts Budget.allocator (start (Budget.new limit) batches) schedule < 2 ^ 55) :
    let x := (start (Budget.new limit) batches).play Budget.allocator schedule
    x.state.limit = (Budget.new limit).limit ∧
    x.state.used.toInt = Person.size.toInt * x.held ∧
    x.state.used.toInt ≤ x.state.limit.toInt ∧
    (∀ i made input inputs, x.clients[i]? = some (.making made (input :: inputs)) →
      ((x.turn Budget.allocator i).clients[i]? = some (.returning false made.reverse) ↔
        x.state.limit.toInt < Person.size.toInt * (x.held + 1))) ∧
    ((∀ c ∈ x.clients, c.finished = true) → x.state.used = 0) := by
  intro x
  have empty := start_held (Budget.new limit) batches
  obtain ⟨balanced, bounded⟩ := play_balanced (start_balanced limit batches) schedule (by omega)
  have used := balanced.used
  rw [Person.size_toInt, balanced.limited]
  refine ⟨rfl, used, balanced.limited ▸ balanced.sound.within, ?_, ?_⟩
  · exact fun i made input inputs found => turn_refused_iff balanced (by omega) found
  · intro finished
    have none : x.held = 0 := held_finished finished
    apply Int64.toInt_inj.mp
    rw [used, none]
    rfl

/-- Two batches of two records where two records have room: the first client is refused while the
second holds a record, gives back its own, and the second is served. -/
theorem batches_share_budget_overlapping :
    let x := start (Budget.new 300) [[⟨[0x41], 1⟩, ⟨[0x42], 2⟩], [⟨[0x43], 3⟩, ⟨[0x44], 4⟩]]
    attempts Budget.allocator x [0, 1, 0, 0, 1, 1, 1, 1] = 4 ∧
    ((x.play Budget.allocator [0, 1]).turn Budget.allocator 0).clients[0]? =
      some (.returning false [⟨Name.new [0x41], 1, 0, some .factory⟩]) ∧
    (x.play Budget.allocator [0, 1, 0, 0, 1, 1, 1, 1]).state.used = 0 := by
  have h := batches_share_budget 300 [[⟨[0x41], 1⟩, ⟨[0x42], 2⟩], [⟨[0x43], 3⟩, ⟨[0x44], 4⟩]]
  have during := h [0, 1] (by decide)
  have after := h [0, 1, 0, 0, 1, 1, 1, 1] (by decide)
  refine ⟨by decide, ?_, after.2.2.2.2 (by decide)⟩
  exact (during.2.2.2.1 0 [⟨Name.new [0x41], 1, 0, some .factory⟩] ⟨[0x42], 2⟩ [] rfl).mpr (by decide)

end Shared
end BoundedRecords
