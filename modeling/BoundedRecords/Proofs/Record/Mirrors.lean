import BoundedRecords.Record.Person

/-! Allocators that mirror each other. Where one allocator does to the image of a state what another does to the state,
records are made and released alike with both. -/
namespace BoundedRecords

def Outcome.mapState {σ τ α : Type} (f : σ → τ) : Outcome σ α → Outcome τ α
  | .done a s => .done a (f s)
  | .refused e s => .refused e (f s)
  | .broken e s => .broken e (f s)

/-- On images under `f`, the second allocator acts as the first does. -/
structure Allocator.Mirrors {σ τ : Type} (f : σ → τ) (A : Allocator σ) (B : Allocator τ) : Prop where
  allocate : ∀ size s, B.allocate size (f s) = (A.allocate size s).mapState f
  free : ∀ size s, B.free size (f s) = f (A.free size s)

namespace Allocator.Mirrors

open Factory

variable {σ τ : Type} {f : σ → τ} {A : Allocator σ} {B : Allocator τ}

theorem create (mirrors : Mirrors f A B) (name : Bytes) (age : Int64) (s : σ) :
    create B name age (f s) = (create A name age s).mapState f := by
  simp only [Factory.create, mirrors.allocate]
  cases A.allocate Person.size s <;> rfl

theorem release (mirrors : Mirrors f A B) (p : Person) (s : σ) : (p.release B (f s)).2 = f (p.release A s).2 := by
  unfold Person.release
  split
  · rfl
  · rfl
  · exact mirrors.free Person.size s

theorem releaseAll (mirrors : Mirrors f A B) (people : List Person) (s : σ) :
    releaseAll B people (f s) = f (releaseAll A people s) := by
  induction people generalizing s with
  | nil => rfl
  | cons p people ih =>
    simp only [Factory.releaseAll, mirrors.release]
    exact ih (p.release A s).2

theorem createOnto (mirrors : Mirrors f A B) (made : List Person) (inputs : List PersonInput) (s : σ) :
    createOnto B made inputs (f s) = (createOnto A made inputs s).mapState f := by
  induction inputs generalizing made s with
  | nil => rfl
  | cons i inputs ih =>
    simp only [Factory.createOnto, mirrors.create]
    cases Factory.create A i.name i.age s with
    | done p t => exact ih (p :: made) t
    | refused e t => simp only [Outcome.mapState, mirrors.releaseAll]
    | broken e t => rfl

theorem createAll (mirrors : Mirrors f A B) (inputs : List PersonInput) (s : σ) :
    createAll B inputs (f s) = (createAll A inputs s).mapState f := mirrors.createOnto [] inputs s

end Allocator.Mirrors
end BoundedRecords
