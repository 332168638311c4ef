import BoundedRecords.Proofs.Command.Sessions
import BoundedRecords.Proofs.Record.Mirrors
import BoundedRecords.Proofs.Record.Requests

/-! The capacity of a budget. One command tells how many records fit in a budget, by a division; another makes records one
by one until the budget is used up. Both come to the same number. -/
namespace BoundedRecords

namespace Budget

/-! Storage with or without a budget acts as its case does. -/

theorem heap_mirrors : Allocator.heap.Mirrors (fun _ => none) optional where
  allocate := by
    intro size _
    simp only [optional]
    cases Allocator.heap.allocate size () <;> rfl
  free := fun _ _ => rfl

theorem allocator_mirrors : allocator.Mirrors some optional where
  allocate := by
    intro size b
    simp only [optional, allocator]
    cases allocate size b <;> rfl
  free := fun _ _ => rfl

theorem heap_grants (n : Nat) : Allocator.heap.Grants n () := by
  induction n with
  | zero => trivial
  | succ n ih => exact ⟨(), rfl, ih⟩

/-- So many records fit in a budget that is not negative; zero sets no bound. -/
def Holds (b : Int64) (n : Nat) : Prop := b = 0 ∨ (n : Int) ≤ b.toInt / Person.size.toInt

theorem ne_zero {b : Int64} (set : 0 < b.toInt) : b ≠ 0 := by
  rintro rfl
  exact absurd set (by decide)

theorem holds_iff {b : Int64} (set : 0 < b.toInt) (n : Nat) : Holds b n ↔ 136 * (n : Int) ≤ b.toInt := by
  rw [Holds, Person.size_toInt, Int.le_ediv_iff_mul_le (by decide), Int.mul_comm]
  simp only [ne_zero set, false_or]

theorem zero_or_set {b : Int64} (positive : 0 ≤ b.toInt) : b = 0 ∨ 0 < b.toInt := by
  rcases Int.lt_or_eq_of_le positive with set | zero
  · exact .inr set
  · exact .inl (Int64.toInt_inj.mp zero.symm)

theorem ofBytes_zero : ofBytes 0 = none := rfl

theorem ofBytes_set {b : Int64} (set : 0 < b.toInt) :
    ofBytes b = some (new b) ∧ (new b).limit.toInt = b.toInt ∧ (new b).used.toInt = 0 := by
  have above : 0 < b := Int64.lt_iff_toInt_lt.mpr set
  refine ⟨if_pos above, ?_, rfl⟩
  rw [new_limit]
  omega

theorem usage_ofBytes {b : Int64} (positive : 0 ≤ b.toInt) :
    optional.usage (ofBytes b) = if b = 0 then none else some ⟨0, b⟩ := by
  rcases zero_or_set positive with rfl | set
  · rfl
  · obtain ⟨started, limit, _⟩ := ofBytes_set set
    have same : (new b).limit = b := Int64.toInt_inj.mp limit
    rw [started, if_neg (ne_zero set)]
    exact congrArg (fun l => some (Usage.mk 0 l)) same

/-- The records of a batch are all made and given back, or refused without a trace. -/
theorem createAll_ofBytes {b : Int64} (positive : 0 ≤ b.toInt) (inputs : List PersonInput)
    (fits : 136 * (inputs.length : Int) < 2 ^ 63) :
    (Holds b inputs.length → ∃ t, Factory.createAll optional inputs (ofBytes b) =
        .done (inputs.map PersonInput.record) t ∧
      Factory.releaseAll optional (inputs.map PersonInput.record) t = ofBytes b) ∧
    (¬ Holds b inputs.length → ∃ e, Factory.createAll optional inputs (ofBytes b) = .refused e (ofBytes b)) := by
  rcases zero_or_set positive with rfl | set
  · rw [ofBytes_zero]
    constructor
    · intro _
      obtain ⟨t, made⟩ := Factory.createAll_granted inputs (heap_grants inputs.length)
      refine ⟨none, ?_, heap_mirrors.releaseAll _ t⟩
      rw [heap_mirrors.createAll inputs (), made]
      rfl
    · intro full
      exact absurd (.inl rfl) full
  · obtain ⟨started, limit, unused⟩ := ofBytes_set set
    have sound := new_sound b
    rw [holds_iff set, started, allocator_mirrors.createAll inputs (new b)]
    constructor
    · intro room
      have within : (new b).used.toInt + 136 * inputs.length ≤ (new b).limit.toInt := by omega
      refine ⟨_, by rw [createAll_granted sound inputs within]; rfl, ?_⟩
      rw [allocator_mirrors.releaseAll]
      have length : inputs.length = (inputs.map PersonInput.record).length := (List.length_map _).symm
      rw [length] at within ⊢
      rw [releaseAll_restores sound (unreleased_records inputs) within]
    · intro full
      obtain ⟨e, refused⟩ := createAll_refused sound inputs (by omega) (by omega)
      exact ⟨e, by rw [refused]; rfl⟩

end Budget

namespace Command

section

variable {S : Surroundings (Option Budget)} {fs : Files} {s : Session (Option Budget)} {b : Int64} {path : Bytes}
  {inputs : List PersonInput}

/-- The line of a record that was made, with its name as the record holds it. -/
def lineFor (i : PersonInput) : Bytes :=
  utf8 "Name: " ++ (Name.new i.name).text ++ utf8 ", Age: " ++ Decimal.ofInt64 i.age ++ utf8 ", Score: 0.0\n"

theorem recordLine_record (i : PersonInput) : recordLine i.record = lineFor i := by
  have score : utf8 ", Score: " ++ (Decimal.ofNat 0 ++ utf8 ".0\n") = utf8 ", Score: 0.0\n" := by decide +kernel
  simp only [recordLine, lineFor, Person.summary, PersonInput.record, List.append_assoc, score]

/-- What is shown of a batch that was made: a line for each record, in order, and how many they are. -/
def batchText (inputs : List PersonInput) : Bytes :=
  inputs.flatMap lineFor ++ utf8 "Created " ++ Decimal.ofNat inputs.length ++ utf8 " records\n"

example : batchText [⟨utf8 "A", 0⟩, ⟨utf8 "B", -7⟩] =
    utf8 "Name: A, Age: 0, Score: 0.0\nName: B, Age: -7, Score: 0.0\nCreated 2 records\n" := by decide +kernel

theorem batch_held (maker : s.maker = .ofAllocator Budget.optional) (storage : s.storage = Budget.ofBytes b)
    (positive : 0 ≤ b.toInt) (read : BatchFile.inputs fs path = .ok inputs)
    (fits : 136 * (inputs.length : Int) < 2 ^ 63) (held : Budget.Holds b inputs.length) (json : Bool) :
    let e := s.batch S fs json path
    e.storage = Budget.ofBytes b ∧ (e.error = none ↔ json = true → S.outputFault = none) ∧
      (e.error ≠ none → outputOf e.writes = []) ∧
      (json = false → S.outputFault = none → outputOf e.writes = batchText inputs) := by
  obtain ⟨t, made, released⟩ := (Budget.createAll_ofBytes positive inputs fits).1 held
  have text : (inputs.map PersonInput.record).flatMap recordLine ++ utf8 "Created " ++
      Decimal.ofNat (inputs.map PersonInput.record).length ++ utf8 " records\n" = batchText inputs := by
    simp only [batchText, List.flatMap_map, List.length_map, recordLine_record]
  simp only [Session.batch, read, maker, Maker.ofAllocator, storage, made, released, text, true_and]
  cases json with
  | true =>
    simp only [Surroundings.putJson, if_true]
    cases S.outputFault with
    | none => simp
    | some why => simp [outputOf]
  | false =>
    simp only [Surroundings.put, Bool.false_eq_true, if_false]
    cases S.outputFault with
    | none => simp [outputOf]
    | some why => simp

theorem batch_not_held (maker : s.maker = .ofAllocator Budget.optional) (storage : s.storage = Budget.ofBytes b)
    (positive : 0 ≤ b.toInt) (read : BatchFile.inputs fs path = .ok inputs)
    (fits : 136 * (inputs.length : Int) < 2 ^ 63) (full : ¬ Budget.Holds b inputs.length) (json : Bool) :
    let e := s.batch S fs json path
    e.storage = Budget.ofBytes b ∧ e.error ≠ none ∧ outputOf e.writes = [] := by
  obtain ⟨e, refused⟩ := (Budget.createAll_ofBytes positive inputs fits).2 full
  simp only [Session.batch, read, maker, Maker.ofAllocator, storage, refused]
  exact ⟨trivial, Option.some_ne_none _, rfl⟩

/-- The last line of the layout, with the number of records that fit. -/
def budgetLine (b : Int64) : Bytes :=
  utf8 "Budget:          " ++
    if b = 0 then utf8 "unlimited\n"
    else Decimal.ofInt b.toInt ++ utf8 " bytes (" ++ Decimal.ofInt (b.toInt / Person.size.toInt) ++ utf8 " records)\n"

theorem recordsWithin_eq {b : Int64} (positive : 0 ≤ b.toInt) :
    (Session.recordsWithin b).toInt = b.toInt / Person.size.toInt := by
  have divided : (b / Person.size).toInt = b.toInt.tdiv Person.size.toInt :=
    Int64.toInt_div_of_ne_right b Person.size (by decide)
  rw [Session.recordsWithin, divided, Int.tdiv_eq_ediv_of_nonneg positive]

theorem layoutText_ends (config : s.config.budget = b) (positive : 0 ≤ b.toInt) :
    ∃ before, s.layoutText = before ++ budgetLine b := by
  have line : utf8 "Budget:          " ++ (if 0 < b then Decimal.ofInt64 b ++ utf8 " bytes (" ++
      Decimal.ofInt64 (Session.recordsWithin b) ++ utf8 " records)\n" else utf8 "unlimited\n") = budgetLine b := by
    rw [budgetLine]
    rcases Budget.zero_or_set positive with rfl | set
    · rfl
    · have above : 0 < b := Int64.lt_iff_toInt_lt.mpr set
      rw [if_pos above, if_neg (Budget.ne_zero set), Decimal.ofInt64, Decimal.ofInt64, recordsWithin_eq positive]
  rw [Session.layoutText, config, List.append_assoc, line]
  exact ⟨_, rfl⟩

end

/-- The capacity that is told is the capacity that is kept. Under the same configuration and budget, one command tells how
many records fit, and a batch succeeds exactly if it has no more; with JSON the output has to work as well, since only
there it is noticed that nothing can be written. A batch shows all its records or nothing, and leaves no byte in use. -/
theorem batch_keeps_told_capacity (S : Surroundings (Option Budget))
    (provided : S.provide = some fun budget => (.ofAllocator Budget.optional, Budget.ofBytes budget)) (fs : Files)
    {line other : List Bytes} {a told : Arguments} (batch : Invokes S line .batch a) (layout : Invokes S other .layout told)
    (sameConfig : told.text? "config" = a.text? "config") (sameBudget : told.number? "budget" = a.number? "budget")
    {c : Config} (resolved : resolveConfig fs S.defaultPath ((a.text? "config").getD []) = .ok c) {b : Int64}
    (effective : b = (a.number? "budget").getD c.budget) (positive : 0 ≤ b) {path : Bytes} (file : a.words = [path])
    {inputs : List PersonInput} (read : BatchFile.inputs fs path = .ok inputs)
    (fits : inputs.length * Person.size.toInt < 2 ^ 63) :
    let r := run S fs line
    (S.outputFault = none → ∃ before, outputOf (run S fs other).writes = before ++ budgetLine b) ∧
    (r.error = none ↔ (b = 0 ∨ (inputs.length : Int) ≤ b.toInt / Person.size.toInt) ∧
      (a.switch "json" = true → S.outputFault = none)) ∧
    (r.error = none → a.switch "json" = false → S.outputFault = none → outputOf r.writes = batchText inputs) ∧
    (r.error ≠ none → outputOf r.writes = []) ∧
    ∃ storage, r.storage = some storage ∧ Budget.optional.usage storage = if b = 0 then none else some ⟨0, b⟩ := by
  intro r
  have nonneg : 0 ≤ b.toInt := Int64.le_iff_toInt_le.mp positive
  have small : 136 * (inputs.length : Int) < 2 ^ 63 := by
    rw [Person.size_toInt] at fits
    omega
  obtain ⟨logger, begun⟩ := Session.begin_ok provided resolved effective (Int64.not_lt.mpr positive)
  obtain ⟨logger', begun'⟩ := Session.begin_ok (a := told) provided (sameConfig ▸ resolved) (sameBudget ▸ effective)
    (Int64.not_lt.mpr positive)
  obtain ⟨error, storage, output⟩ := run_session fs batch (by decide) begun
  obtain ⟨_, _, output'⟩ := run_session fs layout (by decide) begun'
  have ran : ∀ s : Session (Option Budget), s.run S fs .batch a = s.batch S fs (a.switch "json") path := by
    intro s
    simp only [Session.run, file]
  rw [ran] at error storage output
  constructor
  · intro works
    obtain ⟨before, ends⟩ := layoutText_ends (s := ⟨{ c with budget := b }, logger', .ofAllocator Budget.optional,
      Budget.ofBytes b⟩) rfl nonneg
    refine ⟨before, ?_⟩
    rw [output', ← ends]
    simp only [Session.run, Session.layout, Effect.writing, Surroundings.put, works, outputOf]
    simp
  · have usage := Budget.usage_ofBytes nonneg
    by_cases held : Budget.Holds b inputs.length
    · obtain ⟨kept, ok, silent, text⟩ := batch_held (S := S)
        (s := ⟨{ c with budget := b }, logger, .ofAllocator Budget.optional, Budget.ofBytes b⟩) rfl rfl nonneg read
        small held (a.switch "json")
      rw [kept] at storage
      refine ⟨?_, ?_, ?_, ⟨_, storage, usage⟩⟩
      · rw [error, ok]
        exact ⟨fun works => ⟨held, works⟩, And.right⟩
      · intro _ plain works
        rw [output, text plain works]
      · intro failed
        rw [output]
        apply silent
        rwa [← error]
    · obtain ⟨kept, failed, silent⟩ := batch_not_held (S := S)
        (s := ⟨{ c with budget := b }, logger, .ofAllocator Budget.optional, Budget.ofBytes b⟩) rfl rfl nonneg read
        small held (a.switch "json")
      rw [kept] at storage
      rw [← error] at failed
      refine ⟨?_, ?_, ?_, ⟨_, storage, usage⟩⟩
      · exact ⟨fun ok => absurd ok failed, fun both => absurd both.1 held⟩
      · exact fun ok => absurd ok failed
      · intro _
        rw [output, silent]

/-- A directory with a batch of two entries. -/
def twoEntries : Files where
  entry
    | [] => some (.directory 0o755)
    | [name] => if name = utf8 "people" then some (.file 0o644 (utf8 "- name: A\n- name: B\n  age: 7\n")) else none
    | _ => none
  working := []

def budgeted : Surroundings (Option Budget) where
  home := []
  provide := some fun budget => (.ofAllocator Budget.optional, Budget.ofBytes budget)
  key := []
  outputFault := none
  serve := fun _ => none

/-- Two records fit in their own size, and not in one byte less. -/
theorem batch_keeps_told_capacity_boundary :
    let of (budget : String) := run budgeted twoEntries (["batch", "--budget", budget, "people"].map utf8)
    ((of "272").error = none ∧ outputOf (of "272").writes = batchText [⟨utf8 "A", 0⟩, ⟨utf8 "B", 7⟩]) ∧
      (of "271").error ≠ none ∧ outputOf (of "271").writes = [] := by
  intro of
  have read : BatchFile.inputs twoEntries (utf8 "people") = .ok [⟨utf8 "A", 0⟩, ⟨utf8 "B", 7⟩] :=
    eq_ok_of_toOption (by decide +kernel)
  have batch : Invokes budgeted (["batch", "--budget", "272", "people"].map utf8) .batch
      ⟨[("budget", .number 272)], [utf8 "people"]⟩ := invokes_of_invoked? (by decide +kernel)
  have layout : Invokes budgeted (["layout", "--budget", "272"].map utf8) .layout ⟨[("budget", .number 272)], []⟩ :=
    invokes_of_invoked? (by decide +kernel)
  have batch' : Invokes budgeted (["batch", "--budget", "271", "people"].map utf8) .batch
      ⟨[("budget", .number 271)], [utf8 "people"]⟩ := invokes_of_invoked? (by decide +kernel)
  have layout' : Invokes budgeted (["layout", "--budget", "271"].map utf8) .layout ⟨[("budget", .number 271)], []⟩ :=
    invokes_of_invoked? (by decide +kernel)
  have resolved : resolveConfig twoEntries budgeted.defaultPath [] = .ok Config.default :=
    eq_ok_of_toOption (by decide +kernel)
  obtain ⟨_, ok, text, _⟩ := batch_keeps_told_capacity budgeted rfl twoEntries batch layout rfl rfl resolved rfl
    (by decide) rfl read (by decide)
  obtain ⟨_, full, _, silent, _⟩ := batch_keeps_told_capacity budgeted rfl twoEntries batch' layout' rfl rfl resolved rfl
    (by decide) rfl read (by decide)
  have made := ok.mpr ⟨by decide, fun _ => rfl⟩
  have refused : (of "271").error ≠ none := fun none => absurd (full.mp none).1 (by decide)
  exact ⟨⟨made, text made rfl rfl⟩, refused, silent refused⟩

end Command
end BoundedRecords
