import BoundedRecords.Proofs.Api.Routing
import BoundedRecords.Proofs.Api.Watching
import BoundedRecords.Proofs.Record.Requests

/-! Records are released with the answer. What a request has made goes back before it ends, and the gauges are
set after that, so that they show the storage as the request leaves it. -/
namespace BoundedRecords.Api

inductive Order where
  | one (input : PersonInput)
  | many (inputs : List PersonInput)

namespace Order

def inputs : Order → List PersonInput
  | .one i => [i]
  | .many inputs => inputs

def endpoint : Order → Endpoint
  | .one _ => .record
  | .many _ => .batch

/-- What the answer to an order shows. -/
def view : Order → Json
  | .one i => personView i.record
  | .many inputs => batchView (inputs.map PersonInput.record)

end Order

theorem readMany_eq_ok_iff (body : Bytes) (inputs : List PersonInput) :
    readMany body = .ok inputs ↔
      readBody recordsOfJson body = .ok (inputs.map PersonInput.request) ∧ inputs ≠ [] ∧ inputs.length ≤ maxBatch := by
  unfold readMany
  cases readBody recordsOfJson body with
  | error e => simp
  | ok requests =>
    simp only [Except.ok.injEq, ← RecordRequest.inputs_eq_ok_iff]
    constructor
    · intro read
      split at read
      · cases read
      · rename_i some
        split at read
        · cases read
        · rename_i small
          split at read
          · cases read
          · rename_i named
            cases read
            have same := RecordRequest.inputs_eq_ok_iff.mp named
            subst same
            simp only [List.isEmpty_map, List.isEmpty_iff, List.length_map, Nat.not_lt] at some small
            exact ⟨named, some, small⟩
    · rintro ⟨named, some, small⟩
      have same := RecordRequest.inputs_eq_ok_iff.mp named
      have filled : requests.isEmpty = false := by rw [same]; simpa using some
      have few : ¬ maxBatch < requests.length := by rw [same, List.length_map]; omega
      simp only [filled, few, named, Bool.false_eq_true, if_false]

namespace Host

variable {σ : Type}

/-- The order of a request that reaches the factory. -/
def order? (H : Host σ) (r : Request) : Option Order :=
  match H.target? r with
  | some .record => (readOne r.body).toOption.map .one
  | some .batch => (readMany r.body).toOption.map .many
  | _ => none

def fulfil (H : Host σ) (id : Bytes) (m : Metrics) (storage : σ) : Order → Handled σ
  | .one i => H.conclude id (fun p => [p]) personView m (H.maker.create i.name i.age storage)
  | .many inputs => H.conclude id (fun people => people) batchView m (H.maker.createAll inputs storage)

/-- Counting a request changes the counters of requests and the gauge of those in flight. All else is as the handler
left it. -/
theorem endpoint_metrics (H : Host σ) (e : Endpoint) (id body : Bytes) (s : HostState σ) :
    let m := (e.handle H id body { s with metrics := s.metrics.enter (utf8 e.method) (utf8 e.path) }).state.metrics
    ∃ requests durations, (e.serve H id body s).state.metrics =
      { m with
        requests := requests
        durations := durations
        inFlight := m.inFlight.update 0 (· - 1) [utf8 e.path, utf8 e.method] } := by
  simp only [Endpoint.serve, Metrics.instrument, Metrics.leave]
  split <;> exact ⟨_, _, rfl⟩

/-- Two ways to deal with a request that differ in counters only. -/
structure Agree (h h' : Handled σ) : Prop where
  result : h.result = h'.result
  storage : h.state.storage = h'.state.storage
  gauge : h.state.metrics.inUse = h'.state.metrics.inUse

theorem endpoint_agrees (H : Host σ) (e : Endpoint) (id body : Bytes) (s : HostState σ) :
    Agree (e.serve H id body s)
      (e.handle H id body { s with metrics := s.metrics.enter (utf8 e.method) (utf8 e.path) }) := by
  obtain ⟨_, _, metrics⟩ := H.endpoint_metrics e id body s
  exact ⟨rfl, rfl, by rw [metrics]⟩

theorem counted_storage (H : Host σ) (h : Handled σ) : (H.counted h).storage = h.state.storage := by
  unfold counted
  split
  · rfl
  · split <;> rfl

theorem counted_gauge (H : Host σ) (h : Handled σ) :
    (H.counted h).metrics.inUse = h.state.metrics.inUse := by
  unfold counted
  split
  · rfl
  · split <;> rfl

theorem serve_reached {H : Host σ} {r : Request} {e : Endpoint} (reached : H.target? r = some e)
    (fresh : Bytes) (s : HostState σ) :
    ∃ id m, m.inUse = s.metrics.inUse ∧
      let h := e.handle H id r.body ⟨s.storage, m⟩
      (H.serve fresh r s).answer.status = (shown r h).status ∧
      (H.serve fresh r s).answer.body = (shown r h).body ∧
      (H.serve fresh r s).state.storage = h.state.storage ∧
      (H.serve fresh r s).state.metrics.inUse = h.state.metrics.inUse := by
  have responded := respond_reached reached (requestId fresh r) s
  have agree := endpoint_agrees H e (requestId fresh r) r.body s
  refine ⟨requestId fresh r, s.metrics.enter (utf8 e.method) (utf8 e.path), rfl, ?_, ?_, ?_, ?_⟩
  · simp only [serve, responded, shown, agree.result]
  · simp only [serve, responded, shown, agree.result]
  · simp only [serve, responded, counted_storage, agree.storage]
  · simp only [serve, responded, counted_gauge, agree.gauge]

theorem order?_target {H : Host σ} {r : Request} {o : Order} (ordered : H.order? r = some o) :
    H.target? r = some o.endpoint ∧ o.inputs.length ≤ maxBatch ∧
      ∀ id s, o.endpoint.handle H id r.body s = H.fulfil id s.metrics s.storage o := by
  unfold order? at ordered
  split at ordered
  · rename_i reached
    cases read : readOne r.body with
    | error e => simp [read, Except.toOption] at ordered
    | ok i =>
      simp only [read, Except.toOption, Option.map_some, Option.some.injEq] at ordered
      subst ordered
      refine ⟨reached, by simp [Order.inputs, maxBatch], fun id s => ?_⟩
      simp only [Order.endpoint, Endpoint.handle, createOne, read, fulfil]
  · rename_i reached
    cases read : readMany r.body with
    | error e => simp [read, Except.toOption] at ordered
    | ok inputs =>
      simp only [read, Except.toOption, Option.map_some, Option.some.injEq] at ordered
      subst ordered
      refine ⟨reached, ((readMany_eq_ok_iff _ _).mp read).2.2, fun id s => ?_⟩
      simp only [Order.endpoint, Endpoint.handle, createMany, read, fulfil]
  · cases ordered

theorem serve_ordered {H : Host σ} {r : Request} {o : Order} (ordered : H.order? r = some o)
    (fresh : Bytes) (s : HostState σ) :
    ∃ id m,
      let h := H.fulfil id m s.storage o
      (H.serve fresh r s).answer.status = (shown r h).status ∧
      (H.serve fresh r s).answer.body = (shown r h).body ∧
      (H.serve fresh r s).state.storage = h.state.storage ∧
      (H.serve fresh r s).state.metrics.inUse = h.state.metrics.inUse := by
  obtain ⟨reached, _, handled⟩ := order?_target ordered
  obtain ⟨id, m, _, served⟩ := serve_reached reached fresh s
  rw [handled] at served
  exact ⟨id, m, served⟩

theorem handle_unordered {H : Host σ} {r : Request} {e : Endpoint} (reached : H.target? r = some e)
    (unordered : H.order? r = none) (id : Bytes) (s : HostState σ) :
    (e.handle H id r.body s).state.storage = s.storage ∧
      (e.handle H id r.body s).state.metrics.inUse = s.metrics.inUse ∧
      (e.method = "POST" → ∃ a, (e.handle H id r.body s).result = .ok a ∧ a.status = 400) := by
  cases e with
  | health => exact ⟨rfl, rfl, fun impossible => absurd impossible (by decide)⟩
  | layout => exact ⟨rfl, rfl, fun impossible => absurd impossible (by decide)⟩
  | record =>
    cases read : readOne r.body with
    | ok i => simp [order?, reached, read, Except.toOption] at unordered
    | error e =>
      simp only [Endpoint.handle, createOne, read]
      exact ⟨rfl, rfl, fun _ => ⟨_, rfl, rfl⟩⟩
  | batch =>
    cases read : readMany r.body with
    | ok inputs => simp [order?, reached, read, Except.toOption] at unordered
    | error e =>
      simp only [Endpoint.handle, createMany, read]
      exact ⟨rfl, rfl, fun _ => ⟨_, rfl, rfl⟩⟩

/-- A request that orders nothing leaves storage and gauge alone, and a request to make records is then
neither served nor short of storage. -/
theorem serve_unordered {H : Host σ} {r : Request} (unordered : H.order? r = none)
    (fresh : Bytes) (s : HostState σ) :
    (H.serve fresh r s).state.storage = s.storage ∧
      (H.serve fresh r s).state.metrics.inUse = s.metrics.inUse ∧
      (r.method = utf8 "POST" → r.path ≠ utf8 "/metrics" →
        (H.serve fresh r s).answer.status ≠ 200 ∧ (H.serve fresh r s).answer.status ≠ 503) := by
  cases reached : H.target? r with
  | none =>
    obtain ⟨storage, metrics⟩ := respond_unreached reached (requestId fresh r) s
    refine ⟨storage, ?_, ?_⟩
    · change (H.respond (requestId fresh r) r s).2.1.metrics.inUse = s.metrics.inUse
      rcases metrics with same | ⟨success, auth⟩
      · rw [same]
      · rw [auth]
        rfl
    · intro post apart
      have status : TurnedAway (H.serve fresh r s).answer.status :=
        respond_unreached_post reached (requestId fresh r) s post apart
      rcases status with status | status | status <;> simp only [status] <;> decide
  | some e =>
    obtain ⟨id, m, gauge, served⟩ := serve_reached reached fresh s
    obtain ⟨storage, inUse, status⟩ := handle_unordered reached unordered id ⟨s.storage, m⟩
    refine ⟨served.2.2.1.trans storage, (served.2.2.2.trans inUse).trans gauge, ?_⟩
    intro post _
    have method : utf8 e.method = utf8 "POST" := (target?_eq_some reached).2.2.1.symm.trans post
    have makes : e.method = "POST" := by revert method; cases e <;> decide
    obtain ⟨a, result, bad⟩ := status makes
    rw [served.1]
    simp only [shown, result, bad]
    decide

end Host

def servedCalls (n : Nat) : List Call := List.replicate n .granted ++ List.replicate n .returned

def refusedCalls (k : Nat) : List Call :=
  List.replicate k .granted ++ .refused :: List.replicate k .returned

namespace Host

variable {σ : Type}

theorem conclude_done (A : Allocator σ) (apiKey : Bytes) (info : ApiInfo) {α : Type} (id : Bytes)
    (people : α → List Person) (view : α → Json) (m : Metrics) (made : α) (t : σ) (calls : List Call)
    (owned : Unreleased (people made)) :
    let h := (hostOf A.traced apiKey info).conclude id people view m (.done made (t, calls))
    h.result = .ok (success (view made)) ∧
      h.state.storage.2 = calls ++ List.replicate (people made).length .returned :=
  ⟨rfl, Factory.releaseAll_calls A owned (t, calls)⟩

theorem conclude_refused (A : Allocator σ) (apiKey : Bytes) (info : ApiInfo) {α : Type} (id : Bytes)
    (people : α → List Person) (view : α → Json) (m : Metrics) (e : Failure) (t : σ) (calls : List Call) :
    let h := (hostOf A.traced apiKey info).conclude id people view m
      (.refused (.shortage Person.size (some e)) (t, calls))
    (∃ a, h.result = .ok a ∧ a.status = 503) ∧ h.state.storage.2 = calls :=
  ⟨⟨_, rfl, rfl⟩, rfl⟩

theorem fulfil_calls {A : Allocator σ} (answers : A.Answers) (apiKey : Bytes) (info : ApiInfo)
    (id : Bytes) (m : Metrics) (storage : σ) (o : Order) :
    let h := (hostOf A.traced apiKey info).fulfil id m (storage, []) o
    (h.result = .ok (success o.view) ∧ h.state.storage.2 = servedCalls o.inputs.length) ∨
    (∃ a k, h.result = .ok a ∧ a.status = 503 ∧ h.state.storage.2 = refusedCalls k) := by
  cases o with
  | one i =>
    rcases Factory.create_calls answers i (storage, []) with ⟨t, created⟩ | ⟨e, t, created⟩
    · left
      have owned : Unreleased [i.record] := unreleased_records [i]
      have done := conclude_done A apiKey info id (fun p => [p]) personView m i.record t [.granted] owned
      simp only [fulfil, hostOf, Maker.ofAllocator, created]
      exact done
    · right
      simp only [fulfil, hostOf, Maker.ofAllocator, created]
      obtain ⟨⟨a, result, status⟩, calls⟩ :=
        conclude_refused A apiKey info id (fun p => [p]) personView m e t [.refused]
      exact ⟨a, 0, result, status, calls⟩
  | many inputs =>
    rcases Factory.createOnto_calls answers unreleased_nil inputs (storage, []) with
      ⟨t, created⟩ | ⟨e, t, k, created⟩
    · left
      have owned : Unreleased (inputs.map PersonInput.record) := unreleased_records inputs
      have done := conclude_done A apiKey info id (fun people => people) batchView m
        (inputs.map PersonInput.record) t (List.replicate inputs.length .granted) owned
      simp only [List.reverse_nil, List.nil_append] at created
      simp only [fulfil, hostOf, Maker.ofAllocator, Factory.createAll, created]
      refine ⟨done.1, done.2.trans ?_⟩
      simp only [servedCalls, Order.inputs, List.length_map]
    · right
      simp only [List.nil_append, List.length_nil, Nat.zero_add] at created
      simp only [fulfil, hostOf, Maker.ofAllocator, Factory.createAll, created]
      obtain ⟨⟨a, result, status⟩, calls⟩ := conclude_refused A apiKey info id (fun people => people)
        batchView m e t (refusedCalls k)
      exact ⟨a, k, result, status, calls⟩

/-! Storage after an order. The gauge is set from it, and a budget is as it was before. -/

theorem conclude_gauge {α : Type} (H : Host σ) (id : Bytes) (people : α → List Person) (view : α → Json)
    (m : Metrics) (outcome : Outcome σ α) :
    let h := H.conclude id people view m outcome
    ∀ u, H.maker.usage h.state.storage = some u → h.state.metrics.inUse = u.inUse := by
  intro h u usage
  cases outcome <;>
    simp only [h, conclude, report] at usage ⊢ <;>
    simp only [usage] <;>
    rfl

theorem fulfil_gauge (H : Host σ) (id : Bytes) (m : Metrics) (storage : σ) (o : Order) (u : Usage)
    (usage : H.maker.usage (H.fulfil id m storage o).state.storage = some u) :
    (H.fulfil id m storage o).state.metrics.inUse = u.inUse := by
  cases o with
  | one i => exact conclude_gauge H id _ _ m _ u usage
  | many inputs => exact conclude_gauge H id _ _ m _ u usage

theorem fulfil_restores (apiKey : Bytes) (info : ApiInfo) (id : Bytes) (m : Metrics) {b : Budget}
    (sound : b.Sound) (o : Order) (fits : b.used.toInt + 136 * o.inputs.length < 2 ^ 63) :
    ((hostOf Budget.allocator apiKey info).fulfil id m b o).state.storage = b := by
  cases o with
  | one i =>
    have created := Budget.create_eq sound (by simpa [Order.inputs] using fits) i
    by_cases room : b.used.toInt + 136 ≤ b.limit.toInt
    · rw [if_pos room] at created
      simp only [fulfil, hostOf, Maker.ofAllocator, created]
      have owned : Unreleased [i.record] := unreleased_records [i]
      exact Budget.releaseAll_restores sound owned room
    · rw [if_neg room] at created
      simp only [fulfil, hostOf, Maker.ofAllocator, created]
      rfl
  | many inputs =>
    rcases Int.lt_or_le b.limit.toInt (b.used.toInt + 136 * inputs.length) with full | room
    · obtain ⟨e, refused⟩ := Budget.createAll_refused sound inputs fits full
      simp only [fulfil, hostOf, Maker.ofAllocator, refused]
      rfl
    · have released := Budget.releaseAll_restores sound (unreleased_records inputs)
        (by rw [List.length_map]; exact room)
      rw [List.length_map] at released
      simp only [fulfil, hostOf, Maker.ofAllocator, Budget.createAll_granted sound inputs room]
      exact released

theorem serve_restores (apiKey : Bytes) (info : ApiInfo) (fresh : Bytes) (r : Request) (s : HostState Budget)
    (sound : s.storage.Sound) (fits : s.storage.used.toInt + 136 * maxBatch < 2 ^ 63) :
    ((hostOf Budget.allocator apiKey info).serve fresh r s).state.storage = s.storage := by
  cases ordered : (hostOf Budget.allocator apiKey info).order? r with
  | none => exact (serve_unordered ordered fresh s).1
  | some o =>
    obtain ⟨id, m, served⟩ := serve_ordered ordered fresh s
    have small := (order?_target ordered).2.1
    exact served.2.2.1.trans (fulfil_restores apiKey info id m sound o (by omega))

/-- The state after requests that are served one after another. -/
def after (H : Host σ) (s : HostState σ) (requests : List (Bytes × Request)) : HostState σ :=
  ((H.serveAll s requests).getLast?.map Exchange.state).getD s

theorem after_cons (H : Host σ) (s : HostState σ) (fresh : Bytes) (r : Request)
    (requests : List (Bytes × Request)) :
    H.after s ((fresh, r) :: requests) = H.after (H.serve fresh r s).state requests := by
  simp only [after, serveAll, List.getLast?_cons, Option.map_some, Option.getD_some]
  cases (H.serveAll (H.serve fresh r s).state requests).getLast? <;> rfl

theorem after_append (H : Host σ) (s : HostState σ) (first second : List (Bytes × Request)) :
    H.after s (first ++ second) = H.after (H.after s first) second := by
  induction first generalizing s with
  | nil => rfl
  | cons x first ih =>
    obtain ⟨fresh, r⟩ := x
    rw [List.cons_append, after_cons, after_cons, ih]

def Current (H : Host σ) (s : HostState σ) : Prop :=
  ∀ u, H.maker.usage s.storage = some u → s.metrics.inUse = u.inUse

theorem serve_current_of_ordered {H : Host σ} {r : Request} {o : Order} (ordered : H.order? r = some o)
    (fresh : Bytes) (s : HostState σ) : H.Current (H.serve fresh r s).state := by
  obtain ⟨id, m, served⟩ := serve_ordered ordered fresh s
  intro u usage
  rw [served.2.2.1] at usage
  rw [served.2.2.2, fulfil_gauge H id m s.storage o u usage]

theorem serve_current {H : Host σ} {s : HostState σ} (current : H.Current s) (fresh : Bytes) (r : Request) :
    H.Current (H.serve fresh r s).state := by
  cases ordered : H.order? r with
  | some o => exact serve_current_of_ordered ordered fresh s
  | none =>
    obtain ⟨storage, gauge, _⟩ := serve_unordered ordered fresh s
    intro u usage
    rw [storage] at usage
    rw [gauge, current u usage]

theorem after_current {H : Host σ} {s : HostState σ} (current : H.Current s)
    (requests : List (Bytes × Request)) : H.Current (H.after s requests) := by
  induction requests generalizing s with
  | nil => exact current
  | cons x requests ih =>
    obtain ⟨fresh, r⟩ := x
    rw [after_cons]
    exact ih (serve_current current fresh r)

theorem after_restores (apiKey : Bytes) (info : ApiInfo) {s : HostState Budget} (sound : s.storage.Sound)
    (fits : s.storage.used.toInt + 136 * maxBatch < 2 ^ 63) (requests : List (Bytes × Request)) :
    ((hostOf Budget.allocator apiKey info).after s requests).storage = s.storage := by
  induction requests generalizing s with
  | nil => rfl
  | cons x requests ih =>
    obtain ⟨fresh, r⟩ := x
    have same := serve_restores apiKey info fresh r s sound fits
    rw [after_cons, ih (by rw [same]; exact sound) (by rw [same]; exact fits), same]

/-! Calls and answers. -/

theorem callsOf_unordered {A : Allocator σ} {apiKey : Bytes} {info : ApiInfo} {r : Request}
    (unordered : (hostOf A apiKey info).order? r = none) (fresh : Bytes) (s : HostState σ) :
    callsOf A apiKey info fresh r s = [] :=
  congrArg Prod.snd
    (serve_unordered (H := hostOf A.traced apiKey info) unordered fresh ⟨(s.storage, []), s.metrics⟩).1

theorem callsOf_ordered {A : Allocator σ} (answers : A.Answers) {apiKey : Bytes} {info : ApiInfo}
    {r : Request} {o : Order} (ordered : (hostOf A apiKey info).order? r = some o) (fresh : Bytes)
    (s : HostState σ) :
    let a := ((hostOf A apiKey info).serve fresh r s).answer
    (a.status = 200 ∧ a.body = (success o.view).body ∧
      callsOf A apiKey info fresh r s = servedCalls o.inputs.length) ∨
    (∃ k, a.status = 503 ∧ callsOf A apiKey info fresh r s = refusedCalls k) := by
  have watched : (hostOf A.traced apiKey info).order? r = some o := ordered
  have same := (serve_erased A apiKey info fresh r s []).1
  obtain ⟨id, m, status, body, storage, _⟩ := serve_ordered watched fresh ⟨(s.storage, []), s.metrics⟩
  have calls := congrArg Prod.snd storage
  rw [same] at status body
  rcases fulfil_calls answers apiKey info id m s.storage o with
    ⟨result, made⟩ | ⟨a, k, result, short, made⟩
  · left
    simp only [shown, result] at status body
    exact ⟨status, body, calls.trans made⟩
  · right
    simp only [shown, result] at status
    exact ⟨k, status.trans short, calls.trans made⟩

end Host

/-- A request to make records, at one of the two endpoints for it. -/
def PostsTo (r : Request) (e : Endpoint) : Prop :=
  (e = .record ∨ e = .batch) ∧ r.method = utf8 "POST" ∧ r.path = utf8 e.path

theorem postsTo_unique {r : Request} {e f : Endpoint} (first : PostsTo r e) (second : PostsTo r f) : e = f := by
  have path : utf8 e.path = utf8 f.path := first.2.2.symm.trans second.2.2
  have found := (Endpoint.at?_eq_some_iff (utf8 e.path) f).mpr path
  have self := (Endpoint.at?_eq_some_iff (utf8 e.path) e).mpr rfl
  exact Option.some.inj (self.symm.trans found)

theorem postsTo_apart {r : Request} {e : Endpoint} (posts : PostsTo r e) : r.path ≠ utf8 "/metrics" := by
  rw [posts.2.2]
  cases e <;> decide

theorem postsTo_of_ordered {σ : Type} {H : Host σ} {r : Request} {o : Order}
    (ordered : H.order? r = some o) : PostsTo r o.endpoint := by
  have reached := (Host.order?_target ordered).1
  obtain ⟨_, _, method, _⟩ := Host.target?_eq_some reached
  have path := Host.target?_path reached
  cases o with
  | one i => exact ⟨.inl rfl, method, path⟩
  | many inputs => exact ⟨.inr rfl, method, path⟩

theorem quota_answers : Quota.allocator.Answers := by
  intro size s e t
  simp only [Quota.allocator, Quota.allocate]
  split <;> simp

end BoundedRecords.Api
