import BoundedRecords.Api.Host
import BoundedRecords.Proofs.Record.Calls

/-! Hosts that are watched. The calls of a request are read off a host whose allocator records them;
apart from the record, it is the same host: its answers, log, counters and storage do not differ. -/
namespace BoundedRecords.Api

def hostOf {σ : Type} (A : Allocator σ) (apiKey : Bytes) (info : ApiInfo) : Host σ :=
  ⟨.ofAllocator A, apiKey, info⟩

/-- The calls on the allocator that a request makes. -/
def callsOf {σ : Type} (A : Allocator σ) (apiKey : Bytes) (info : ApiInfo) (fresh : Bytes) (r : Request)
    (s : HostState σ) : List Call :=
  ((hostOf A.traced apiKey info).serve fresh r ⟨(s.storage, []), s.metrics⟩).state.storage.2

def HostState.erased {σ : Type} (s : HostState (σ × List Call)) : HostState σ := ⟨s.storage.1, s.metrics⟩

def Handled.erased {σ : Type} (h : Handled (σ × List Call)) : Handled σ := ⟨h.result, h.state.erased, h.logs⟩

namespace Metrics

variable {σ : Type} {handler : HostState (σ × List Call) → Handled (σ × List Call)} {plain : HostState σ → Handled σ}

/-! Counting around a handler. -/

theorem instrument_erased (same : ∀ s, (handler s).erased = plain s.erased) (method endpoint : Bytes)
    (s : HostState (σ × List Call)) :
    (instrument method endpoint handler s).erased = instrument method endpoint plain s.erased := by
  have inside := same { s with metrics := s.metrics.enter method endpoint }
  simp only [HostState.erased] at inside
  simp only [instrument, HostState.erased, ← inside]
  rfl

theorem instrumentAuth_erased (same : ∀ s, (handler s).erased = plain s.erased) (hasKey : Bool)
    (s : HostState (σ × List Call)) :
    (instrumentAuth hasKey handler s).erased = instrumentAuth hasKey plain s.erased := by
  simp only [instrumentAuth, ← same s]
  rcases handler s with ⟨result, state, logs⟩
  cases result with
  | error f => rfl
  | ok a => cases hasKey <;> rfl

end Metrics

namespace Host

variable {σ : Type} (A : Allocator σ) (apiKey : Bytes) (info : ApiInfo)

theorem conclude_erased {α : Type} (id : Bytes) (people : α → List Person) (view : α → Json)
    (m : Metrics) (outcome : Outcome (σ × List Call) α) :
    ((hostOf A.traced apiKey info).conclude id people view m outcome).erased =
      (hostOf A apiKey info).conclude id people view m (outcome.mapState Prod.fst) := by
  cases outcome with
  | done made t =>
    have released := A.traced_mirrors.releaseAll (people made) t
    simp only [Outcome.mapState, conclude, hostOf, Maker.ofAllocator, released]
    rfl
  | refused e t => rfl
  | broken e t => rfl

theorem createOne_erased (id body : Bytes) (s : HostState (σ × List Call)) :
    ((hostOf A.traced apiKey info).createOne id body s).erased =
      (hostOf A apiKey info).createOne id body s.erased := by
  unfold createOne
  split
  · rfl
  · rw [conclude_erased]
    simp only [hostOf, Maker.ofAllocator, ← A.traced_mirrors.create]
    rfl

theorem createMany_erased (id body : Bytes) (s : HostState (σ × List Call)) :
    ((hostOf A.traced apiKey info).createMany id body s).erased =
      (hostOf A apiKey info).createMany id body s.erased := by
  unfold createMany
  split
  · rfl
  · rw [conclude_erased]
    simp only [hostOf, Maker.ofAllocator, ← A.traced_mirrors.createAll]
    rfl

theorem handle_erased (e : Endpoint) (id body : Bytes) (s : HostState (σ × List Call)) :
    (e.handle (hostOf A.traced apiKey info) id body s).erased =
      e.handle (hostOf A apiKey info) id body s.erased := by
  cases e with
  | health => rfl
  | layout => rfl
  | record => exact createOne_erased A apiKey info id body s
  | batch => exact createMany_erased A apiKey info id body s

theorem endpoint_erased (e : Endpoint) (id body : Bytes) (s : HostState (σ × List Call)) :
    (e.serve (hostOf A.traced apiKey info) id body s).erased =
      e.serve (hostOf A apiKey info) id body s.erased :=
  Metrics.instrument_erased (handle_erased A apiKey info e id body) (utf8 e.method) (utf8 e.path) s

theorem dispatch_erased (id : Bytes) (r : Request) (s : HostState (σ × List Call)) :
    ((hostOf A.traced apiKey info).dispatch id r s).erased =
      (hostOf A apiKey info).dispatch id r s.erased := by
  unfold dispatch
  split
  · rfl
  · split
    · exact endpoint_erased A apiKey info _ id r.body s
    · rfl

section

variable {inner : HostState (σ × List Call) → Handled (σ × List Call)} {plain : HostState σ → Handled σ}

theorem checked_erased (same : ∀ s, (inner s).erased = plain s.erased) (key : Bytes) (s : HostState (σ × List Call)) :
    ((hostOf A.traced apiKey info).checked key inner s).erased = (hostOf A apiKey info).checked key plain s.erased := by
  have kept : (hostOf A.traced apiKey info).apiKey = (hostOf A apiKey info).apiKey := rfl
  simp only [checked, kept]
  split
  · rfl
  · split
    · exact same s
    · rfl

theorem guarded_erased (same : ∀ s, (inner s).erased = plain s.erased) (r : Request) (s : HostState (σ × List Call)) :
    ((hostOf A.traced apiKey info).guarded r inner s).erased =
      (hostOf A apiKey info).guarded r plain s.erased := by
  have kept : (hostOf A.traced apiKey info).apiKey = (hostOf A apiKey info).apiKey := rfl
  simp only [guarded, kept]
  split
  · exact same s
  · exact Metrics.instrumentAuth_erased (checked_erased A apiKey info same _) _ s

end

theorem describe_erased (path : Bytes) (s : HostState (σ × List Call)) :
    ((hostOf A.traced apiKey info).describe path s).erased =
      (hostOf A apiKey info).describe path s.erased := by
  have same : (hostOf A.traced apiKey info).info = (hostOf A apiKey info).info := rfl
  simp only [describe, same]
  split
  · rfl
  · split
    · split <;> rfl
    · rfl

theorem route_erased (id : Bytes) (r : Request) (s : HostState (σ × List Call)) :
    ((hostOf A.traced apiKey info).route id r s).erased =
      (hostOf A apiKey info).route id r s.erased := by
  simp only [route]
  split
  · rfl
  · split
    · rfl
    · split
      · exact guarded_erased A apiKey info (dispatch_erased A apiKey info id r) r s
      · split
        · split
          · exact describe_erased A apiKey info r.path s
          · rfl
        · rfl

/-- The recording host gives the same answer and log, and leaves the same counters and storage. -/
theorem serve_erased (fresh : Bytes) (r : Request) (s : HostState σ) (calls : List Call) :
    let watched := (hostOf A.traced apiKey info).serve fresh r ⟨(s.storage, calls), s.metrics⟩
    let plain := (hostOf A apiKey info).serve fresh r s
    watched.answer = plain.answer ∧ watched.logs = plain.logs ∧ watched.state.erased = plain.state := by
  have routed := route_erased A apiKey info (requestId fresh r) r ⟨(s.storage, calls), s.metrics⟩
  have start : HostState.erased ⟨(s.storage, calls), s.metrics⟩ = s := rfl
  rw [start] at routed
  simp only [serve, respond, ← routed]
  split
  · exact ⟨rfl, rfl, rfl⟩
  · exact ⟨rfl, rfl, rfl⟩

end Host
end BoundedRecords.Api
