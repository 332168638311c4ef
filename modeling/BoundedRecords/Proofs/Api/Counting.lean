import BoundedRecords.Proofs.Api.KeyGuard
import BoundedRecords.Proofs.Api.Shortages

/-! Counting requests. A request that reaches an endpoint is counted behind its handler, under the status of its
answer, and leaves the gauges of requests in flight as it found them. The count is missed where the allocator
breaks the handler off: such a request is answered, and no series tells of it. -/
namespace BoundedRecords.Api

namespace Tally

variable {α : Type}

/-- The number of a series; one that was never used has `zero`. -/
def read (zero : α) (labels : List Bytes) (t : Tally α) : α := (t.get? labels).getD zero

theorem read_update (zero : α) (f : α → α) (labels other : List Bytes) (t : Tally α) :
    read zero other (t.update zero f labels) =
      if other = labels then f (read zero labels t) else read zero other t := by
  induction t with
  | nil =>
    by_cases same : other = labels
    · simp [update, read, get?, same]
    · have apart : (other == labels) = false := beq_eq_false_iff_ne.mpr same
      simp [update, read, get?, List.lookup_cons, same, apart]
  | cons entry t ih =>
    obtain ⟨l, n⟩ := entry
    simp only [read, get?] at ih
    by_cases here : l = labels
    · subst here
      by_cases same : other = l
      · simp [update, read, get?, same]
      · have apart : (other == l) = false := beq_eq_false_iff_ne.mpr same
        simp [update, read, get?, List.lookup_cons, same, apart]
    · have apart : (labels == l) = false := beq_eq_false_iff_ne.mpr (Ne.symm here)
      simp only [update, here, if_false, read, get?, List.lookup_cons, apart]
      by_cases same : other = l
      · subst same
        simp [here]
      · have passed : (other == l) = false := beq_eq_false_iff_ne.mpr same
        simp only [passed]
        exact ih

end Tally

namespace Metrics

theorem read_count (n : Nat) (labels other : List Bytes) (t : Tally Nat) :
    Tally.read 0 other (count n labels t) = Tally.read 0 other t + if other = labels then n else 0 := by
  rw [count, Tally.read_update]
  split
  · rename_i same
    rw [same]
  · rfl

theorem read_leave_enter (method endpoint : Bytes) (labels : List Bytes) (t : Tally Int) :
    Tally.read 0 labels ((t.update 0 (· + 1) [endpoint, method]).update 0 (· - 1) [endpoint, method]) =
      Tally.read 0 labels t := by
  rw [Tally.read_update, Tally.read_update, Tally.read_update]
  split
  · rename_i same
    rw [same]
    simp
  · rfl

/-- The statuses that handlers announce. -/
def Announced (status : Nat) : Prop := status = 200 ∨ status = 400 ∨ status = 500 ∨ status = 503

theorem Announced.seen {status : Nat} (announced : Announced status) : seenStatus status = some status := by
  rcases announced with rfl | rfl | rfl | rfl <;> rfl

/-- What a handler leaves of the counters that are kept around it. -/
structure Frame (m m' : Metrics) : Prop where
  requests : m'.requests = m.requests
  inFlight : m'.inFlight = m.inFlight
  auth : m'.auth = m.auth

end Metrics

namespace Host

variable {σ : Type}

theorem report_frame (H : Host σ) (storage : σ) (m : Metrics) : m.Frame (H.report storage m).metrics := by
  unfold report
  split <;> exact ⟨rfl, rfl, rfl⟩

theorem conclude_frame {α : Type} (H : Host σ) (id : Bytes) (people : α → List Person) (view : α → Json) (m : Metrics)
    (outcome : Outcome σ α) : m.Frame (H.conclude id people view m outcome).state.metrics := by
  cases outcome with
  | done made t =>
    have kept := H.report_frame (H.maker.releaseAll (people made) t) (m.recordCreate true (people made).length).1
    exact ⟨kept.requests, kept.inFlight, kept.auth⟩
  | refused e t =>
    have kept := H.report_frame t (m.recordCreate false 1).1
    exact ⟨kept.requests, kept.inFlight, kept.auth⟩
  | broken f t => exact H.report_frame t m

theorem handle_frame (H : Host σ) (e : Endpoint) (id body : Bytes) (s : HostState σ) :
    s.metrics.Frame (e.handle H id body s).state.metrics := by
  cases e with
  | health => exact ⟨rfl, rfl, rfl⟩
  | layout => exact ⟨rfl, rfl, rfl⟩
  | record =>
    simp only [Endpoint.handle, createOne]
    split
    · exact ⟨rfl, rfl, rfl⟩
    · exact H.conclude_frame id _ _ s.metrics _
  | batch =>
    simp only [Endpoint.handle, createMany]
    split
    · exact ⟨rfl, rfl, rfl⟩
    · exact H.conclude_frame id _ _ s.metrics _

theorem conclude_announced {α : Type} {H : Host σ} {id : Bytes} {people : α → List Person} {view : α → Json} {m : Metrics}
    {outcome : Outcome σ α} {a : Answer} (given : (H.conclude id people view m outcome).result = .ok a) :
    Metrics.Announced a.status := by
  cases outcome with
  | done made t =>
    cases given
    exact .inl rfl
  | refused e t =>
    cases given
    simp only [refusal]
    split
    · exact .inr (.inr (.inr rfl))
    · exact .inr (.inr (.inl rfl))
  | broken f t => cases given

theorem handle_announced (H : Host σ) (e : Endpoint) (id body : Bytes) (s : HostState σ) (a : Answer)
    (given : (e.handle H id body s).result = .ok a) : Metrics.Announced a.status := by
  cases e with
  | health =>
    cases given
    exact .inl rfl
  | layout =>
    cases given
    exact .inl rfl
  | record =>
    simp only [Endpoint.handle, createOne] at given
    split at given
    · cases given
      exact .inr (.inl rfl)
    · exact conclude_announced given
  | batch =>
    simp only [Endpoint.handle, createMany] at given
    split at given
    · cases given
      exact .inr (.inl rfl)
    · exact conclude_announced given

theorem endpoint_requests (H : Host σ) (e : Endpoint) (id body : Bytes) (s : HostState σ) :
    (e.serve H id body s).state.metrics.requests =
      match (e.serve H id body s).result with
      | .ok a => Metrics.count 1 [utf8 e.path, utf8 e.method, Decimal.ofInt a.status] s.metrics.requests
      | .error _ => s.metrics.requests := by
  have kept := H.handle_frame e id body { s with metrics := s.metrics.enter (utf8 e.method) (utf8 e.path) }
  have announced := H.handle_announced e id body { s with metrics := s.metrics.enter (utf8 e.method) (utf8 e.path) }
  simp only [Endpoint.serve, Metrics.instrument, Metrics.leave]
  -- Only the result and the kept counters of the handler matter from here on.
  generalize e.handle H id body { s with metrics := s.metrics.enter (utf8 e.method) (utf8 e.path) } = h
    at kept announced ⊢
  obtain ⟨result, state, logs⟩ := h
  cases result with
  | ok a =>
    have before : state.metrics.requests = s.metrics.requests := kept.requests
    simp only [Metrics.recordRequest, before, (announced a rfl).seen, Option.getD_some]
  | error f => exact kept.requests

theorem endpoint_inFlight (H : Host σ) (e : Endpoint) (id body : Bytes) (s : HostState σ) (labels : List Bytes) :
    Tally.read 0 labels (e.serve H id body s).state.metrics.inFlight = Tally.read 0 labels s.metrics.inFlight := by
  have kept := H.handle_frame e id body { s with metrics := s.metrics.enter (utf8 e.method) (utf8 e.path) }
  have inside : _ = s.metrics.inFlight.update 0 (· + 1) [utf8 e.path, utf8 e.method] := kept.inFlight
  obtain ⟨_, _, metrics⟩ := H.endpoint_metrics e id body s
  rw [metrics]
  simp only [inside, Metrics.read_leave_enter]

theorem endpoint_auth (H : Host σ) (e : Endpoint) (id body : Bytes) (s : HostState σ) :
    (e.serve H id body s).state.metrics.auth = s.metrics.auth := by
  have kept := H.handle_frame e id body { s with metrics := s.metrics.enter (utf8 e.method) (utf8 e.path) }
  obtain ⟨_, _, metrics⟩ := H.endpoint_metrics e id body s
  rw [metrics]
  exact kept.auth

theorem counted_metrics (H : Host σ) (h : Handled σ) :
    (H.counted h).metrics = { h.state.metrics with auth := (H.counted h).metrics.auth } := by
  unfold counted
  split
  · rfl
  · split <;> rfl

theorem serve_reached_state {H : Host σ} {r : Request} {e : Endpoint} (reached : H.target? r = some e) (fresh : Bytes)
    (s : HostState σ) :
    (H.serve fresh r s).state = H.counted (e.serve H (requestId fresh r) r.body s) := by
  simp only [serve, respond_reached reached]

theorem serve_inFlight (H : Host σ) (fresh : Bytes) (r : Request) (s : HostState σ) (labels : List Bytes) :
    Tally.read 0 labels (H.serve fresh r s).state.metrics.inFlight = Tally.read 0 labels s.metrics.inFlight := by
  cases reached : H.target? r with
  | none => rw [(serve_untouched reached fresh s).inFlight]
  | some e =>
    rw [serve_reached_state reached, counted_metrics]
    exact H.endpoint_inFlight e _ r.body s labels

/-- The series that a request belongs to with its answer, if it reaches an endpoint. -/
def series? (H : Host σ) (r : Request) (a : Answer) : Option (List Bytes) :=
  (H.target? r).map fun e => [utf8 e.path, utf8 e.method, Decimal.ofInt a.status]

/-- The request is counted once, in the series of its answer, and in no other; one that reaches no endpoint is not
counted. -/
def Metered (H : Host σ) (s : HostState σ) (fresh : Bytes) (r : Request) : Prop :=
  ∀ labels, Tally.read 0 labels (H.serve fresh r s).state.metrics.requests =
    Tally.read 0 labels s.metrics.requests + if H.series? r (H.serve fresh r s).answer = some labels then 1 else 0

/-- No series tells of the request, though it reached an endpoint; it is answered as one that broke off. -/
structure Uncounted (H : Host σ) (s : HostState σ) (fresh : Bytes) (r : Request) : Prop where
  reached : (H.target? r).isSome = true
  status : (H.serve fresh r s).answer.status = (brokenOff r).status
  requests : (H.serve fresh r s).state.metrics.requests = s.metrics.requests

theorem metered_or_uncounted {H : Host σ} {r : Request} {e : Endpoint} (reached : H.target? r = some e) (fresh : Bytes)
    (s : HostState σ) :
    match (e.serve H (requestId fresh r) r.body s).result with
    | .ok _ => H.Metered s fresh r
    | .error _ => H.Uncounted s fresh r := by
  have requests : (H.serve fresh r s).state.metrics.requests =
      (e.serve H (requestId fresh r) r.body s).state.metrics.requests := by
    rw [serve_reached_state reached, counted_metrics]
  have counted := H.endpoint_requests e (requestId fresh r) r.body s
  split
  · rename_i a result
    have status : (H.serve fresh r s).answer.status = a.status := by
      simp only [serve, respond_reached reached, shown, result]
    rw [result] at counted
    intro labels
    rw [requests, counted, Metrics.read_count]
    simp only [series?, reached, Option.map_some, Option.some.injEq, status, eq_comm]
  · rename_i f result
    rw [result] at counted
    refine ⟨by rw [reached]; rfl, ?_, requests.trans counted⟩
    simp only [serve, respond_reached reached, shown, result]

theorem metered_of_unreached {H : Host σ} {r : Request} (unreached : H.target? r = none) (fresh : Bytes)
    (s : HostState σ) : H.Metered s fresh r := by
  intro labels
  simp [(serve_untouched unreached fresh s).requests, series?, unreached]

theorem Uncounted.not_metered {H : Host σ} {s : HostState σ} {fresh : Bytes} {r : Request}
    (uncounted : H.Uncounted s fresh r) : ¬ H.Metered s fresh r := by
  intro metered
  obtain ⟨e, reached⟩ := Option.isSome_iff_exists.mp uncounted.reached
  have raised := metered [utf8 e.path, utf8 e.method, Decimal.ofInt (H.serve fresh r s).answer.status]
  simp [uncounted.requests, series?, reached] at raised

end Host

/-- The allocator breaks off at one of the calls that a request makes on it. -/
def Interrupted {σ : Type} (A : Allocator σ) (apiKey : Bytes) (info : ApiInfo) (s : HostState σ) (r : Request) : Prop :=
  ∃ o, (hostOf A apiKey info).order? r = some o ∧ A.Breaks o.inputs.length s.storage

namespace Host

variable {σ : Type} {A : Allocator σ} {apiKey : Bytes} {info : ApiInfo}

theorem fulfil_error_iff (id : Bytes) (m : Metrics) (storage : σ) (o : Order) :
    (∃ f, ((hostOf A apiKey info).fulfil id m storage o).result = .error f) ↔ A.Breaks o.inputs.length storage := by
  rw [fulfil_eq]
  constructor
  · rintro ⟨f, error⟩
    rcases A.grants_or_stops o.inputs.length storage with grants | ⟨e, refuses⟩ | breaks
    · obtain ⟨t, done⟩ := Factory.createAll_granted o.inputs grants
      simp only [done, conclude] at error
      cases error
    · obtain ⟨t, refused⟩ := Factory.createOnto_refused refuses []
      simp only [Factory.createAll, refused, conclude] at error
      cases error
    · exact breaks
  · intro breaks
    obtain ⟨f, t, broken⟩ := Factory.createOnto_broken breaks []
    exact ⟨f, by simp only [Factory.createAll, broken, conclude]⟩

theorem handle_unordered_ok {H : Host σ} {r : Request} {e : Endpoint} (reached : H.target? r = some e)
    (unordered : H.order? r = none) (id : Bytes) (s : HostState σ) : ∃ a, (e.handle H id r.body s).result = .ok a := by
  cases e with
  | health => exact ⟨_, rfl⟩
  | layout => exact ⟨_, rfl⟩
  | record =>
    obtain ⟨a, result, _⟩ := (handle_unordered reached unordered id s).2.2 rfl
    exact ⟨a, result⟩
  | batch =>
    obtain ⟨a, result, _⟩ := (handle_unordered reached unordered id s).2.2 rfl
    exact ⟨a, result⟩

/-- A handler gives no answer exactly where the allocator breaks it off. -/
theorem endpoint_error_iff {r : Request} {e : Endpoint} (reached : (hostOf A apiKey info).target? r = some e)
    (id : Bytes) (s : HostState σ) :
    (∃ f, (e.serve (hostOf A apiKey info) id r.body s).result = .error f) ↔ Interrupted A apiKey info s r := by
  rw [(endpoint_agrees (hostOf A apiKey info) e id r.body s).result]
  cases ordered : (hostOf A apiKey info).order? r with
  | none =>
    obtain ⟨a, ok⟩ := handle_unordered_ok reached ordered id
      { s with metrics := s.metrics.enter (utf8 e.method) (utf8 e.path) }
    simp [ok, Interrupted, ordered]
  | some o =>
    obtain ⟨target, _, handled⟩ := order?_target ordered
    cases reached.symm.trans target
    rw [handled, fulfil_error_iff]
    simp [Interrupted, ordered]

theorem not_interrupted_of_answers (answers : A.Answers) (s : HostState σ) (r : Request) :
    ¬ Interrupted A apiKey info s r := by
  rintro ⟨o, _, breaks⟩
  exact answers.not_breaks _ _ breaks

theorem not_interrupted_of_unreached {r : Request} (unreached : (hostOf A apiKey info).target? r = none)
    (s : HostState σ) : ¬ Interrupted A apiKey info s r := by
  rintro ⟨o, ordered, _⟩
  cases unreached.symm.trans (order?_target ordered).1

theorem serve_metered_or_interrupted (fresh : Bytes) (r : Request) (s : HostState σ) :
    (hostOf A apiKey info).Metered s fresh r ∧ ¬ Interrupted A apiKey info s r ∨
      (hostOf A apiKey info).Uncounted s fresh r ∧ Interrupted A apiKey info s r := by
  cases reached : (hostOf A apiKey info).target? r with
  | none => exact .inl ⟨metered_of_unreached reached fresh s, not_interrupted_of_unreached reached s⟩
  | some e =>
    have counted := metered_or_uncounted reached fresh s
    have broken := endpoint_error_iff reached (requestId fresh r) s
    cases result : (e.serve (hostOf A apiKey info) (requestId fresh r) r.body s).result with
    | ok a =>
      rw [result] at counted broken
      refine .inl ⟨counted, fun interrupted => ?_⟩
      obtain ⟨f, error⟩ := broken.mpr interrupted
      cases error
    | error f =>
      rw [result] at counted broken
      exact .inr ⟨counted, broken.mp ⟨f, rfl⟩⟩

theorem metered_iff (fresh : Bytes) (r : Request) (s : HostState σ) :
    (hostOf A apiKey info).Metered s fresh r ↔ ¬ Interrupted A apiKey info s r := by
  rcases serve_metered_or_interrupted fresh r s with ⟨metered, unbroken⟩ | ⟨uncounted, interrupted⟩
  · exact ⟨fun _ => unbroken, fun _ => metered⟩
  · exact ⟨fun metered => absurd metered uncounted.not_metered, fun unbroken => absurd interrupted unbroken⟩

/-! Whole runs. -/

/-- The property of every request of a run, in the state that it finds. -/
def Throughout (H : Host σ) (P : HostState σ → Bytes → Request → Prop) (s : HostState σ)
    (requests : List (Bytes × Request)) : Prop :=
  ∀ before fresh r later, requests = before ++ (fresh, r) :: later → P (H.after s before) fresh r

theorem throughout_cons {H : Host σ} {P : HostState σ → Bytes → Request → Prop} {s : HostState σ} {fresh : Bytes}
    {r : Request} {requests : List (Bytes × Request)} (all : H.Throughout P s ((fresh, r) :: requests)) :
    P s fresh r ∧ H.Throughout P (H.serve fresh r s).state requests := by
  refine ⟨all [] fresh r requests rfl, ?_⟩
  rintro before fresh' r' later rfl
  have found := all ((fresh, r) :: before) fresh' r' later rfl
  rwa [after_cons] at found

/-- The requests of a run, each with what came of it. -/
def transcript (H : Host σ) (s : HostState σ) (requests : List (Bytes × Request)) : List (Request × Exchange σ) :=
  (requests.map Prod.snd).zip (H.serveAll s requests)

theorem transcript_cons (H : Host σ) (s : HostState σ) (fresh : Bytes) (r : Request) (requests : List (Bytes × Request)) :
    H.transcript s ((fresh, r) :: requests) =
      (r, H.serve fresh r s) :: H.transcript (H.serve fresh r s).state requests := rfl

/-- A number that each request raises by its share is raised by the shares of all. -/
theorem after_total {H : Host σ} (number : Metrics → Nat) (share : Request → Answer → Nat) {s : HostState σ}
    {requests : List (Bytes × Request)}
    (raised : H.Throughout (fun s fresh r => number (H.serve fresh r s).state.metrics =
      number s.metrics + share r (H.serve fresh r s).answer) s requests) :
    number (H.after s requests).metrics =
      number s.metrics + ((H.transcript s requests).map fun x => share x.1 x.2.answer).sum := by
  induction requests generalizing s with
  | nil => rfl
  | cons x requests ih =>
    obtain ⟨fresh, r⟩ := x
    obtain ⟨first, later⟩ := throughout_cons raised
    rw [after_cons, ih later, first, transcript_cons, List.map_cons, List.sum_cons, Nat.add_assoc]

theorem after_counted {H : Host σ} (number : Metrics → Nat) (belongs : Request → Answer → Bool) {s : HostState σ}
    {requests : List (Bytes × Request)}
    (raised : H.Throughout (fun s fresh r => number (H.serve fresh r s).state.metrics =
      number s.metrics + if belongs r (H.serve fresh r s).answer then 1 else 0) s requests) :
    number (H.after s requests).metrics =
      number s.metrics + (H.transcript s requests).countP fun x => belongs x.1 x.2.answer := by
  rw [after_total number (fun r a => if belongs r a then 1 else 0) raised]
  congr 1
  -- A sum of ones and zeros is a count.
  induction H.transcript s requests with
  | nil => rfl
  | cons x served ih => rw [List.map_cons, List.sum_cons, List.countP_cons, ih, Nat.add_comm]

/-- Each series grows by the number of answers that belong to it. -/
theorem after_requests {H : Host σ} {s : HostState σ} {requests : List (Bytes × Request)}
    (metered : H.Throughout H.Metered s requests) (labels : List Bytes) :
    Tally.read 0 labels (H.after s requests).metrics.requests =
      Tally.read 0 labels s.metrics.requests +
        (H.transcript s requests).countP fun x => H.series? x.1 x.2.answer = some labels := by
  apply after_counted (fun m => Tally.read 0 labels m.requests) fun r a => decide (H.series? r a = some labels)
  intro before fresh r later split
  simpa only [decide_eq_true_eq] using metered before fresh r later split labels

end Host

/-- Where a run of requests is counted without a gap. The gauges of requests in flight are kept by every request; each is
counted once, under the status that its answer shows, exactly if the allocator does not break it off; so a run is
counted as a whole exactly if it has no such request, and then every series tells the number of its answers. -/
theorem requests_metered_iff_unbroken {σ : Type} (A : Allocator σ) (apiKey : Bytes) (info : ApiInfo) (start : HostState σ)
    (requests : List (Bytes × Request)) :
    let H := hostOf A apiKey info
    H.Throughout (fun s fresh r => ∀ labels, Tally.read 0 labels (H.serve fresh r s).state.metrics.inFlight =
      Tally.read 0 labels s.metrics.inFlight) start requests ∧
    H.Throughout (fun s fresh r => H.Metered s fresh r ∧ ¬ Interrupted A apiKey info s r ∨
      H.Uncounted s fresh r ∧ Interrupted A apiKey info s r) start requests ∧
    (H.Throughout H.Metered start requests ↔
      H.Throughout (fun s _ r => ¬ Interrupted A apiKey info s r) start requests) ∧
    (H.Throughout (fun s _ r => ¬ Interrupted A apiKey info s r) start requests → ∀ labels,
      Tally.read 0 labels (H.after start requests).metrics.requests =
        Tally.read 0 labels start.metrics.requests +
          (H.transcript start requests).countP fun x => H.series? x.1 x.2.answer = some labels) := by
  intro H
  have unbroken : H.Throughout H.Metered start requests ↔
      H.Throughout (fun s _ r => ¬ Interrupted A apiKey info s r) start requests := by
    constructor
    · intro metered before fresh r later split
      exact (Host.metered_iff fresh r _).mp (metered before fresh r later split)
    · intro whole before fresh r later split
      exact (Host.metered_iff fresh r _).mpr (whole before fresh r later split)
  refine ⟨?_, ?_, unbroken, ?_⟩
  · intro before fresh r later _
    exact H.serve_inFlight fresh r (H.after start before)
  · intro before fresh r later _
    exact Host.serve_metered_or_interrupted fresh r _
  · intro whole
    exact Host.after_requests (unbroken.mpr whole)

/-- Three requests for a record where a quota grants one: two of the answers tell of a shortage, and are counted. -/
theorem requests_metered_refused_twice :
    let H := hostOf Quota.allocator [] .default
    let r : Request := ⟨utf8 "POST", utf8 "/api/v1/records", [], utf8 "\x7b\"name\":\"A\"\x7d"⟩
    Tally.read 0 [utf8 "/api/v1/records", utf8 "POST", utf8 "503"]
      (H.after ⟨⟨1, 0⟩, .new⟩ [([], r), ([], r), ([], r)]).metrics.requests = 2 := by
  intro H r
  have unbroken : H.Throughout (fun s _ r => ¬ Interrupted Quota.allocator [] .default s r) ⟨⟨1, 0⟩, .new⟩
      [([], r), ([], r), ([], r)] :=
    fun _ _ r _ _ => Host.not_interrupted_of_answers quota_answers _ r
  obtain ⟨_, _, _, totals⟩ :=
    requests_metered_iff_unbroken Quota.allocator [] .default ⟨⟨1, 0⟩, .new⟩ [([], r), ([], r), ([], r)]
  rw [totals unbroken]
  decide +kernel

/-- The endpoint for one record, with an allocator that breaks off: the answer is an error, which is not counted. -/
theorem broken_request_uncounted :
    let H := hostOf Allocator.broken [] .default
    let r : Request := ⟨utf8 "POST", utf8 "/api/v1/records", [], utf8 "\x7b\"name\":\"Alice\",\"age\":30\x7d"⟩
    H.target? r = some .record ∧ (H.serve [] r ⟨(), .new⟩).answer.status = 500 ∧
      (H.serve [] r ⟨(), .new⟩).state.metrics.requests = [] ∧ ¬ H.Metered ⟨(), .new⟩ [] r := by
  intro H r
  have ordered : H.order? r = some (.one ⟨utf8 "Alice", 30⟩) := by rfl
  have interrupted : Interrupted Allocator.broken [] .default ⟨(), .new⟩ r := ⟨_, ordered, .inl ⟨_, (), rfl⟩⟩
  rcases Host.serve_metered_or_interrupted [] r ⟨(), .new⟩ with ⟨_, unbroken⟩ | ⟨uncounted, _⟩
  · exact absurd interrupted unbroken
  · exact ⟨by decide, uncounted.status, uncounted.requests, uncounted.not_metered⟩

end BoundedRecords.Api
