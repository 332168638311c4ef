import BoundedRecords.Proofs.Record.Calls
import BoundedRecords.Proofs.Record.Requests

/-! Shortages. Where storage is refused no record is made, and what is told is a shortage for one record with
the allocator's own failure as its cause. The chain of failures behind it can still be searched, at any depth
of surrounding text. -/
namespace BoundedRecords

/-- What callers look for in a chain: a reason that is known here, or a failure of their own, told by its text. -/
inductive Sentinel where
  | reason (r : Reason)
  | own (text : Bytes)
deriving DecidableEq, Repr

/-- Whether a single failure is what is looked for. A shortage passes for the reason `allocation`. -/
def Sentinel.isAt : Sentinel → Failure → Bool
  | .reason r, .reason r' => r' == r
  | .reason r, .shortage _ _ => r == .allocation
  | .reason r, .blank => r == .allocation
  | .own text, .plain text' => text' == text
  | _, _ => false

namespace Failure

/-- The failures of a chain, from the outside in. -/
def links : Failure → List Failure
  | .reason r => [.reason r]
  | .plain text => [.plain text]
  | .within before inner after => .within before inner after :: inner.links
  | .shortage size none => [.shortage size none]
  | .shortage size (some cause) => .shortage size (some cause) :: cause.links
  | .blank => [.blank]

def holds (x : Sentinel) (e : Failure) : Bool := e.links.any x.isAt

/-- A failure stems from a reason exactly if the search along its chain finds it. -/
theorem holds_reason (r : Reason) : (e : Failure) → e.holds (.reason r) = e.stemsFrom r
  | .reason r' => by simp [holds, links, Sentinel.isAt, stemsFrom]
  | .plain text => by simp [holds, links, Sentinel.isAt, stemsFrom]
  | .within before inner after => by
    have later := holds_reason r inner
    simpa [holds, links, Sentinel.isAt, stemsFrom] using later
  | .shortage size none => by simp [holds, links, Sentinel.isAt, stemsFrom]
  | .shortage size (some cause) => by
    have later := holds_reason r cause
    simp only [holds] at later
    simp [holds, links, Sentinel.isAt, stemsFrom, later]
  | .blank => by simp [holds, links, Sentinel.isAt, stemsFrom]

/-- The failure inside layers of surrounding text, the outermost first. -/
def wrapped (layers : List (Bytes × Bytes)) (e : Failure) : Failure :=
  layers.foldr (fun layer inner => .within layer.1 inner layer.2) e

end Failure

/-- The failure `err` is, under whatever text, a shortage for one record caused by `e`, and for the rest holds
what `e` holds. -/
structure ShortageOf (e err : Failure) : Prop where
  allocation : err.stemsFrom .allocation = true
  cause : err.shortage? = some (Person.size, some e)
  reasons : ∀ r, r ≠ .allocation → err.stemsFrom r = e.stemsFrom r
  others : ∀ x, x ≠ .reason .allocation → err.holds x = e.holds x

theorem ShortageOf.of_holds {e err : Failure} (allocation : err.stemsFrom .allocation = true)
    (cause : err.shortage? = some (Person.size, some e))
    (others : ∀ x, x ≠ .reason .allocation → err.holds x = e.holds x) : ShortageOf e err := by
  refine ⟨allocation, cause, ?_, others⟩
  intro r other
  rw [← Failure.holds_reason, ← Failure.holds_reason]
  apply others
  simpa using other

theorem shortageOf_shortage (e : Failure) : ShortageOf e (.shortage Person.size (some e)) := by
  apply ShortageOf.of_holds (by simp [Failure.stemsFrom]) rfl
  intro x other
  cases x with
  | reason r =>
    have differs : r ≠ .allocation := fun same => other (by rw [same])
    simp [Failure.holds, Failure.links, Sentinel.isAt, differs]
  | own text => simp [Failure.holds, Failure.links, Sentinel.isAt]

theorem ShortageOf.within {e err : Failure} (short : ShortageOf e err) (before after : Bytes) :
    ShortageOf e (.within before err after) := by
  refine .of_holds short.allocation short.cause ?_
  intro x other
  have later := short.others x other
  cases x <;> simpa [Failure.holds, Failure.links, Sentinel.isAt] using later

theorem ShortageOf.wrapped {e err : Failure} (short : ShortageOf e err) (layers : List (Bytes × Bytes)) :
    ShortageOf e (err.wrapped layers) := by
  induction layers with
  | nil => exact short
  | cons layer layers ih => exact ih.within layer.1 layer.2

namespace Allocator

variable {σ : Type}

/-- Of so many requests for a record each, the first that is not granted ends in the given way. -/
def Stops (A : Allocator σ) (ending : Outcome σ Unit → Prop) : Nat → σ → Prop
  | 0, _ => False
  | n + 1, s =>
    ending (A.allocate Person.size s) ∨ ∃ t, A.allocate Person.size s = .done () t ∧ A.Stops ending n t

def Refuses (A : Allocator σ) (e : Failure) : Nat → σ → Prop := A.Stops fun outcome => ∃ t, outcome = .refused e t

def Breaks (A : Allocator σ) : Nat → σ → Prop := A.Stops fun outcome => ∃ f t, outcome = .broken f t

theorem grants_or_stops (A : Allocator σ) (n : Nat) (s : σ) :
    A.Grants n s ∨ (∃ e, A.Refuses e n s) ∨ A.Breaks n s := by
  induction n generalizing s with
  | zero => exact .inl trivial
  | succ n ih =>
    cases asked : A.allocate Person.size s with
    | done u t =>
      rcases ih t with grants | ⟨e, refuses⟩ | breaks
      · exact .inl ⟨t, asked, grants⟩
      · exact .inr (.inl ⟨e, .inr ⟨t, asked, refuses⟩⟩)
      · exact .inr (.inr (.inr ⟨t, asked, breaks⟩))
    | refused e t => exact .inr (.inl ⟨e, .inl ⟨t, asked⟩⟩)
    | broken f t => exact .inr (.inr (.inl ⟨f, t, asked⟩))

theorem Answers.not_breaks {A : Allocator σ} (answers : A.Answers) (n : Nat) (s : σ) : ¬ A.Breaks n s := by
  induction n generalizing s with
  | zero => exact id
  | succ n ih =>
    rintro (⟨f, t, broken⟩ | ⟨t, _, later⟩)
    · exact answers _ _ _ _ broken
    · exact ih t later

end Allocator

namespace Factory

variable {σ : Type} {A : Allocator σ} {s : σ}

theorem createOnto_refused {e : Failure} {inputs : List PersonInput} (refuses : A.Refuses e inputs.length s)
    (made : List Person) :
    ∃ t, createOnto A made inputs s = .refused (.shortage Person.size (some e)) t := by
  induction inputs generalizing made s with
  | nil => exact refuses.elim
  | cons i inputs ih =>
    rcases refuses with ⟨t, refused⟩ | ⟨t, granted, later⟩
    · exact ⟨releaseAll A made.reverse t, by simp only [createOnto, create, refused]⟩
    · obtain ⟨u, rest⟩ := ih later (i.record :: made)
      exact ⟨u, by simp only [createOnto, create_granted granted, rest]⟩

theorem createOnto_broken {inputs : List PersonInput} (breaks : A.Breaks inputs.length s) (made : List Person) :
    ∃ f t, createOnto A made inputs s = .broken f t := by
  induction inputs generalizing made s with
  | nil => exact breaks.elim
  | cons i inputs ih =>
    rcases breaks with ⟨f, t, broken⟩ | ⟨t, granted, later⟩
    · exact ⟨f, t, by simp only [createOnto, create, broken]⟩
    · obtain ⟨f, u, rest⟩ := ih later (i.record :: made)
      exact ⟨f, u, by simp only [createOnto, create_granted granted, rest]⟩

/-- Making one record is making a batch of one. -/
theorem createAll_singleton (A : Allocator σ) (i : PersonInput) (s : σ) :
    createAll A [i] s = (create A i.name i.age s).bind fun p t => .done [p] t := by
  simp only [createAll, createOnto]
  cases create A i.name i.age s <;> rfl

/-- Records are refused for want of storage only, and then with the failure of the allocator as the cause. -/
theorem createAll_eq_refused_iff (inputs : List PersonInput) (err : Failure) :
    (∃ t, createAll A inputs s = .refused err t) ↔
      ∃ e, A.Refuses e inputs.length s ∧ err = .shortage Person.size (some e) := by
  constructor
  · rintro ⟨t, refused⟩
    rcases A.grants_or_stops inputs.length s with grants | ⟨e, refuses⟩ | breaks
    · obtain ⟨u, done⟩ := createAll_granted inputs grants
      cases refused.symm.trans done
    · obtain ⟨u, short⟩ := createOnto_refused refuses []
      cases refused.symm.trans short
      exact ⟨e, refuses, rfl⟩
    · obtain ⟨f, u, broken⟩ := createOnto_broken breaks []
      cases refused.symm.trans broken
  · rintro ⟨e, refuses, rfl⟩
    exact createOnto_refused refuses []

end Factory
end BoundedRecords
