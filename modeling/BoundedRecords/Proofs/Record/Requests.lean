import BoundedRecords.Proofs.Record.Batch
import BoundedRecords.Record.Request

/-! From requests to records. A list of requests gives one input for each of them, in order, or the position of the
first that has no name; inputs become records where storage is granted for all of them. -/
namespace BoundedRecords

/-- The request that an input comes from. -/
def PersonInput.request (i : PersonInput) : RecordRequest := ⟨some i.name, i.age⟩

namespace RecordRequest

theorem inputsFrom_requests (index : Nat) (inputs : List PersonInput) :
    inputsFrom index (inputs.map PersonInput.request) = .ok inputs := by
  induction inputs generalizing index with
  | nil => rfl
  | cons i inputs ih => simp only [List.map_cons, inputsFrom, PersonInput.request, ih]

theorem inputsFrom_unnamed (index : Nat) (before : List PersonInput) {q : RecordRequest} (unnamed : q.name = none)
    (after : List RecordRequest) :
    inputsFrom index (before.map PersonInput.request ++ q :: after) = .error (index + before.length) := by
  induction before generalizing index with
  | nil => simp only [List.map_nil, List.nil_append, inputsFrom, unnamed, List.length_nil, Nat.add_zero]
  | cons i before ih =>
    have position : index + 1 + before.length = index + (before.length + 1) := by omega
    simp only [List.map_cons, List.cons_append, inputsFrom, PersonInput.request, ih, List.length_cons, position]

/-- Requests either all have names, or there is a first without. -/
theorem named_or_unnamed (requests : List RecordRequest) :
    (∃ inputs : List PersonInput, requests = inputs.map PersonInput.request) ∨
      ∃ (before : List PersonInput) (q : RecordRequest) (after : List RecordRequest), q.name = none ∧
        requests = before.map PersonInput.request ++ q :: after := by
  induction requests with
  | nil => exact .inl ⟨[], rfl⟩
  | cons q requests ih =>
    obtain ⟨name, age⟩ := q
    cases name with
    | none => exact .inr ⟨[], ⟨none, age⟩, requests, rfl, rfl⟩
    | some name =>
      rcases ih with ⟨inputs, rfl⟩ | ⟨before, p, after, unnamed, rfl⟩
      · exact .inl ⟨⟨name, age⟩ :: inputs, rfl⟩
      · exact .inr ⟨⟨name, age⟩ :: before, p, after, unnamed, rfl⟩

theorem all_named_iff (requests : List RecordRequest) :
    (∀ q ∈ requests, q.name.isSome = true) ↔ ∃ inputs : List PersonInput, requests = inputs.map PersonInput.request := by
  constructor
  · intro named
    rcases named_or_unnamed requests with all | ⟨before, q, after, unnamed, rfl⟩
    · exact all
    · have some := named q (List.mem_append_right _ List.mem_cons_self)
      rw [unnamed] at some
      cases some
  · rintro ⟨inputs, rfl⟩ q found
    obtain ⟨i, _, rfl⟩ := List.mem_map.mp found
    rfl

theorem inputs_eq_ok_iff {requests : List RecordRequest} {people : List PersonInput} :
    inputs requests = .ok people ↔ requests = people.map PersonInput.request := by
  constructor
  · intro read
    rcases named_or_unnamed requests with ⟨all, rfl⟩ | ⟨before, q, after, unnamed, rfl⟩
    · rw [inputs, inputsFrom_requests] at read
      rw [Except.ok.inj read]
    · rw [inputs, inputsFrom_unnamed 0 before unnamed after] at read
      cases read
  · rintro rfl
    exact inputsFrom_requests 0 people

theorem inputs_eq_error_iff {requests : List RecordRequest} {index : Nat} :
    inputs requests = .error index ↔
      ∃ (before : List PersonInput) (q : RecordRequest) (after : List RecordRequest), q.name = none ∧
        requests = before.map PersonInput.request ++ q :: after ∧ index = before.length := by
  constructor
  · intro read
    rcases named_or_unnamed requests with ⟨all, rfl⟩ | ⟨before, q, after, unnamed, rfl⟩
    · rw [inputs, inputsFrom_requests] at read
      cases read
    · rw [inputs, inputsFrom_unnamed 0 before unnamed after, Nat.zero_add] at read
      exact ⟨before, q, after, unnamed, rfl, (Except.error.inj read).symm⟩
  · rintro ⟨before, q, after, unnamed, rfl, rfl⟩
    rw [inputs, inputsFrom_unnamed 0 before unnamed after, Nat.zero_add]

end RecordRequest

/-- The allocator grants storage for so many records, one after another. -/
def Allocator.Grants {σ : Type} (A : Allocator σ) : Nat → σ → Prop
  | 0, _ => True
  | n + 1, s => ∃ t, A.allocate Person.size s = .done () t ∧ A.Grants n t

namespace Factory

variable {σ : Type} {A : Allocator σ} {s : σ}

theorem create_granted {t : σ} (granted : A.allocate Person.size s = .done () t) (i : PersonInput) :
    create A i.name i.age s = .done i.record t := by
  simp only [create, granted]
  rfl

theorem createOnto_granted {inputs : List PersonInput} (grants : A.Grants inputs.length s) (made : List Person) :
    ∃ t, createOnto A made inputs s = .done (made.reverse ++ inputs.map PersonInput.record) t := by
  induction inputs generalizing made s with
  | nil => exact ⟨s, by simp only [createOnto, List.map_nil, List.append_nil]⟩
  | cons i inputs ih =>
    obtain ⟨t, granted, later⟩ := grants
    obtain ⟨u, rest⟩ := ih later (i.record :: made)
    refine ⟨u, ?_⟩
    simp only [createOnto, create_granted granted, rest, List.reverse_cons, List.append_assoc, List.singleton_append, List.map_cons]

theorem createAll_granted (inputs : List PersonInput) (grants : A.Grants inputs.length s) :
    ∃ t, createAll A inputs s = .done (inputs.map PersonInput.record) t := createOnto_granted grants []

end Factory
end BoundedRecords
