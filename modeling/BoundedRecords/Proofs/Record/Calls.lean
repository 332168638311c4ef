import BoundedRecords.Proofs.Record.Batch
import BoundedRecords.Proofs.Record.Mirrors

/-! The calls that making and releasing records puts on an allocator. Nothing is assumed of the
allocator but that it answers: it may have a state of its own that no return refills. Recording the
calls changes nothing else. -/
namespace BoundedRecords

/-! The calls for the storage of one record. -/

namespace Call

def granted : Call := .allocate Person.size true
def refused : Call := .allocate Person.size false
def returned : Call := .free Person.size

end Call

/-- No request makes the allocator break off. -/
def Allocator.Answers {σ : Type} (A : Allocator σ) : Prop :=
  ∀ size s e t, A.allocate size s ≠ .broken e t

/-- With the record of calls erased, the allocator is as it was. -/
theorem Allocator.traced_mirrors {σ : Type} (A : Allocator σ) : A.traced.Mirrors Prod.fst A where
  allocate := by
    intro size s
    simp only [traced]
    cases A.allocate size s.1 <;> rfl
  free := fun _ _ => rfl

namespace Factory

variable {σ : Type}

theorem releaseAll_calls (A : Allocator σ) {people : List Person} (owned : Unreleased people)
    (s : σ × List Call) :
    (releaseAll A.traced people s).2 = s.2 ++ List.replicate people.length .returned := by
  induction people generalizing s with
  | nil => simp only [releaseAll, List.length_nil, List.replicate_zero, List.append_nil]
  | cons p people ih =>
    obtain ⟨first, rest⟩ := unreleased_of_cons owned
    rw [releaseAll, ih rest, List.length_cons, List.replicate_succ]
    simp only [Person.release, first, Allocator.traced, Call.returned, List.append_assoc,
      List.singleton_append]

theorem create_calls {A : Allocator σ} (answers : A.Answers) (i : PersonInput) (s : σ × List Call) :
    (∃ t, create A.traced i.name i.age s = .done i.record (t, s.2 ++ [.granted])) ∨
    (∃ e t, create A.traced i.name i.age s =
      .refused (.shortage Person.size (some e)) (t, s.2 ++ [.refused])) := by
  simp only [create, Allocator.traced]
  cases asked : A.allocate Person.size s.1 with
  | done u t => exact .inl ⟨t, rfl⟩
  | refused e t => exact .inr ⟨e, t, rfl⟩
  | broken e t => exact absurd asked (answers _ _ _ _)

/-- The calls of a batch after `made` records of it: one grant for each input, or grants up to a refusal
and then a return for every record of the batch. -/
theorem createOnto_calls {A : Allocator σ} (answers : A.Answers) {made : List Person}
    (owned : Unreleased made) (inputs : List PersonInput) (s : σ × List Call) :
    (∃ t, createOnto A.traced made inputs s =
      .done (made.reverse ++ inputs.map PersonInput.record)
        (t, s.2 ++ List.replicate inputs.length .granted)) ∨
    (∃ e t k, createOnto A.traced made inputs s =
      .refused (.shortage Person.size (some e))
        (t, s.2 ++ List.replicate k .granted ++ .refused :: List.replicate (made.length + k) .returned)) := by
  induction inputs generalizing made s with
  | nil =>
    left
    refine ⟨s.1, ?_⟩
    simp only [createOnto, List.map_nil, List.length_nil, List.replicate_zero, List.append_nil]
  | cons i inputs ih =>
    rcases create_calls answers i s with ⟨t, created⟩ | ⟨e, t, created⟩
    · have grown : Unreleased (i.record :: made) := unreleased_cons rfl owned
      rcases ih grown (t, s.2 ++ [.granted]) with ⟨u, all⟩ | ⟨e, u, k, refused⟩
      · left
        refine ⟨u, ?_⟩
        simp only [createOnto, created, all, List.reverse_cons, List.append_assoc, List.map_cons,
          List.singleton_append, List.length_cons, List.replicate_succ]
      · right
        refine ⟨e, u, k + 1, ?_⟩
        have sum : made.length + 1 + k = made.length + (k + 1) := by omega
        simp only [createOnto, created, refused, List.length_cons, sum, List.append_assoc,
          List.nil_append, List.replicate_succ, List.cons_append]
    · right
      refine ⟨e, (releaseAll A.traced made.reverse (t, s.2 ++ [.refused])).1, 0, ?_⟩
      have calls := releaseAll_calls A (unreleased_reverse owned) (t, s.2 ++ [.refused])
      simp only [createOnto, created, List.replicate_zero, List.append_nil, Nat.add_zero]
      congr 1
      apply Prod.ext
      · rfl
      · simp only [calls, List.length_reverse, List.append_assoc, List.singleton_append]

end Factory
end BoundedRecords
