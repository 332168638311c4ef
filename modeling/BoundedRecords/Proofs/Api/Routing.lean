import BoundedRecords.Api.Host

/-! Which handler a request reaches. A request either runs the handler of one endpoint, and is answered
with what that handler says, or it leaves the storage and all counters but one as they were. Every
method, path, header and body is covered by the two cases. -/
namespace BoundedRecords.Api

theorem Endpoint.at?_eq_some_iff (path : Bytes) (e : Endpoint) :
    Endpoint.at? path = some e ↔ path = utf8 e.path := by
  constructor
  · intro found
    simpa using List.find?_some found
  · rintro rfl
    cases e <;> decide

/-- A route that is written without escapes is reached under its own path only. -/
theorem path_of_routePath {r : Request} {route : Bytes} (reached : r.routePath = route)
    (plain : unescape route = route) (below : route ≠ utf8 "/") : r.path = route := by
  have decoded : r.path = unescape (writtenPath r.target) := rfl
  simp only [Request.routePath] at reached
  split at reached
  · split at reached
    · exact absurd reached.symm below
    · exact reached
  · split at reached
    · exact absurd reached.symm below
    · rw [decoded, reached, plain]

/-- The status that denies a request is always kept. -/
theorem Metrics.seenStatus_denied (status : Nat) : (seenStatus status != some 401) = (status != 401) := by
  by_cases denied : status = 401
  · subst denied
    decide
  · have kept : seenStatus status ≠ some 401 := by
      unfold seenStatus
      split <;> simp [denied]
    rw [bne_iff_ne.mpr kept, bne_iff_ne.mpr denied]

namespace Host

variable {σ : Type}

def admits (H : Host σ) (r : Request) : Bool := H.apiKey.isEmpty || r.header "X-Api-Key" == H.apiKey

/-- The endpoint whose handler runs for a request. -/
def target? (H : Host σ) (r : Request) : Option Endpoint :=
  if CrossOrigin.isPreflight r then none
  else (Endpoint.at? r.routePath).filter fun e => r.method == utf8 e.method && H.admits r

/-- The state that the guard leaves behind a request it let pass. -/
def counted (H : Host σ) (h : Handled σ) : HostState σ :=
  if H.apiKey.isEmpty then h.state
  else
    match h.result with
    | .ok a => { h.state with metrics := h.state.metrics.recordAuth (a.status != 401) }
    | .error _ => h.state

def shown (r : Request) (h : Handled σ) : Answer :=
  let a := match h.result with
    | .ok a => a
    | .error _ => brokenOff r
  { a with headers := CrossOrigin.requestHeaders r ++ a.headers }

theorem guarded_admitted (H : Host σ) {r : Request} (inner : HostState σ → Handled σ) (s : HostState σ)
    (admitted : H.admits r = true) :
    H.guarded r inner s = { inner s with state := H.counted (inner s) } := by
  unfold guarded counted
  by_cases open_ : H.apiKey.isEmpty = true
  · simp only [open_, if_true]
  · have key : (r.header "X-Api-Key" == H.apiKey) = true := by
      simpa only [admits, open_, Bool.false_or, Bool.or_eq_true, false_or] using admitted
    have given : ¬ (r.header "X-Api-Key").isEmpty = true := by
      rw [eq_of_beq key]
      exact open_
    simp only [open_, Metrics.instrumentAuth, checked, given, key, Bool.not_false, if_true, if_false,
      Bool.false_eq_true, Metrics.seenStatus_denied]
    rcases inner s with ⟨result, state, logs⟩
    cases result <;> rfl

theorem guarded_rejected (H : Host σ) {r : Request} (inner : HostState σ → Handled σ) (s : HostState σ)
    (rejected : H.admits r = false) :
    ∃ a m, H.guarded r inner s = ⟨.ok a, ⟨s.storage, m⟩, []⟩ ∧ a.status = 401 ∧
      (m = s.metrics ∨ m = s.metrics.recordAuth false) := by
  simp only [admits, Bool.or_eq_false_iff] at rejected
  obtain ⟨closed, wrong⟩ := rejected
  by_cases missing : (r.header "X-Api-Key").isEmpty = true
  · simp only [guarded, Metrics.instrumentAuth, checked, closed, missing, if_true, if_false, Bool.false_eq_true]
    exact ⟨_, s.metrics, rfl, rfl, .inl rfl⟩
  · simp only [guarded, Metrics.instrumentAuth, checked, closed, missing, wrong, if_false, Bool.false_eq_true]
    exact ⟨_, s.metrics.recordAuth false, rfl, rfl, .inr rfl⟩

theorem target?_eq_some {H : Host σ} {r : Request} {e : Endpoint} (reached : H.target? r = some e) :
    CrossOrigin.isPreflight r = false ∧ r.routePath = utf8 e.path ∧ r.method = utf8 e.method ∧
      H.admits r = true := by
  simp only [target?] at reached
  split at reached
  · cases reached
  · rename_i other
    obtain ⟨found, passed⟩ := Option.filter_eq_some_iff.mp reached
    simp only [Bool.and_eq_true, beq_iff_eq] at passed
    exact ⟨by simpa using other, (Endpoint.at?_eq_some_iff _ _).mp found, passed.1, passed.2⟩

theorem target?_path {H : Host σ} {r : Request} {e : Endpoint} (reached : H.target? r = some e) :
    r.path = utf8 e.path := by
  obtain ⟨_, path, _, _⟩ := target?_eq_some reached
  exact path_of_routePath path (by cases e <;> decide) (by cases e <;> decide)

/-- A request that reaches an endpoint is answered with what stands behind it. -/
theorem respond_reached {H : Host σ} {r : Request} {e : Endpoint} (reached : H.target? r = some e)
    (id : Bytes) (s : HostState σ) :
    H.respond id r s =
      (shown r (e.serve H id r.body s), H.counted (e.serve H id r.body s), (e.serve H id r.body s).logs) := by
  obtain ⟨other, path, method, admitted⟩ := target?_eq_some reached
  have known : knownMethods.contains r.method = true := by rw [method]; cases e <;> decide
  have apart : (r.routePath == utf8 "/metrics") = false := by rw [path]; cases e <;> decide
  have api : isApiPath r.routePath = true := by rw [path]; cases e <;> decide
  have found := (Endpoint.at?_eq_some_iff r.routePath e).mpr path
  have dispatched : H.dispatch id r s = e.serve H id r.body s := by
    simp only [dispatch, found, method, BEq.rfl, if_true]
  have routed : H.route id r s = { e.serve H id r.body s with state := H.counted (e.serve H id r.body s) } := by
    simp only [route, known, apart, api, Bool.not_true, Bool.false_eq_true, if_false, if_true,
      guarded_admitted H (H.dispatch id r) s admitted, dispatched]
  simp only [respond, other, routed, Bool.false_eq_true, if_false]
  rfl

theorem dispatch_unreached {H : Host σ} {r : Request} (other : CrossOrigin.isPreflight r = false)
    (admitted : H.admits r = true) (unreached : H.target? r = none) (id : Bytes) (s : HostState σ) :
    ∃ a, H.dispatch id r s = answered a s ∧ (a.status = 404 ∨ a.status = 405) := by
  unfold dispatch
  split
  · exact ⟨notFound, rfl, .inl rfl⟩
  · rename_i e found
    have mismatch : (r.method == utf8 e.method) = false := by
      simpa [target?, other, found, admitted] using unreached
    simp only [mismatch, Bool.false_eq_true, if_false]
    exact ⟨methodNotAllowed [e.method], rfl, .inr rfl⟩

def TurnedAway (status : Nat) : Prop := status = 401 ∨ status = 404 ∨ status = 405

theorem guarded_unreached {H : Host σ} {r : Request} (other : CrossOrigin.isPreflight r = false)
    (unreached : H.target? r = none) (id : Bytes) (s : HostState σ) :
    ∃ a m, H.guarded r (H.dispatch id r) s = ⟨.ok a, ⟨s.storage, m⟩, []⟩ ∧
      (m = s.metrics ∨ ∃ success, m = s.metrics.recordAuth success) ∧ TurnedAway a.status := by
  cases admitted : H.admits r with
  | true =>
    obtain ⟨a, dispatched, status⟩ := dispatch_unreached other admitted unreached id s
    rw [guarded_admitted H (H.dispatch id r) s admitted, dispatched]
    refine ⟨a, (H.counted (answered a s)).metrics, ?_, ?_, .inr status⟩
    · unfold counted
      split <;> rfl
    · unfold counted
      split
      · exact .inl rfl
      · exact .inr ⟨_, rfl⟩
  | false =>
    obtain ⟨a, m, rejected, status, metrics⟩ := guarded_rejected H (H.dispatch id r) s admitted
    refine ⟨a, m, rejected, ?_, .inl status⟩
    rcases metrics with same | auth
    · exact .inl same
    · exact .inr ⟨false, auth⟩

theorem describe_keeps (H : Host σ) (path : Bytes) (s : HostState σ) :
    ∃ a logs, H.describe path s = ⟨.ok a, s, logs⟩ := by
  unfold describe
  split
  · exact ⟨_, _, rfl⟩
  · split
    · split <;> exact ⟨_, _, rfl⟩
    · exact ⟨_, _, rfl⟩

theorem route_unreached {H : Host σ} {r : Request} (other : CrossOrigin.isPreflight r = false)
    (unreached : H.target? r = none) (id : Bytes) (s : HostState σ) :
    ∃ a m logs, H.route id r s = ⟨.ok a, ⟨s.storage, m⟩, logs⟩ ∧
      (m = s.metrics ∨ ∃ success, m = s.metrics.recordAuth success) ∧
      (isApiPath r.routePath = true → TurnedAway a.status) ∧
      (r.method = utf8 "POST" → r.routePath ≠ utf8 "/metrics" → TurnedAway a.status) := by
  simp only [route]
  split
  · have status : TurnedAway (methodNotAllowed []).status := .inr (.inr rfl)
    exact ⟨_, _, _, rfl, .inl rfl, fun _ => status, fun _ _ => status⟩
  · split
    · rename_i metrics
      have path : r.routePath = utf8 "/metrics" := by simpa using metrics
      refine ⟨_, _, _, rfl, .inl rfl, ?_, fun _ apart => absurd path apart⟩
      rw [path]
      intro impossible
      exact absurd impossible (by decide)
    · split
      · obtain ⟨a, m, guarded, metrics, status⟩ := guarded_unreached other unreached id s
        exact ⟨a, m, [], guarded, metrics, fun _ => status, fun _ _ => status⟩
      · rename_i outside
        split
        · split
          · rename_i get
            have method : r.method = utf8 "GET" := by simpa using get
            obtain ⟨a, logs, described⟩ := describe_keeps H r.path s
            refine ⟨a, _, logs, described, .inl rfl, fun api => absurd api outside, ?_⟩
            rw [method]
            intro impossible
            exact absurd impossible (by decide)
          · have status : TurnedAway (methodNotAllowed ["GET"]).status := .inr (.inr rfl)
            exact ⟨_, _, _, rfl, .inl rfl, fun _ => status, fun _ _ => status⟩
        · have status : TurnedAway notFound.status := .inr (.inl rfl)
          exact ⟨_, _, _, rfl, .inl rfl, fun _ => status, fun _ _ => status⟩

/-- A request that reaches no endpoint changes no storage and at most the count of keys. -/
theorem respond_unreached {H : Host σ} {r : Request} (unreached : H.target? r = none)
    (id : Bytes) (s : HostState σ) :
    (H.respond id r s).2.1.storage = s.storage ∧
      ((H.respond id r s).2.1.metrics = s.metrics ∨
        ∃ success, (H.respond id r s).2.1.metrics = s.metrics.recordAuth success) := by
  cases preflight : CrossOrigin.isPreflight r with
  | true => simp only [respond, preflight, if_true, true_or, and_self]
  | false =>
    obtain ⟨a, m, logs, routed, metrics, _⟩ := route_unreached preflight unreached id s
    simp only [respond, preflight, routed, Bool.false_eq_true, if_false, true_and]
    exact metrics

theorem respond_unreached_post {H : Host σ} {r : Request} (unreached : H.target? r = none)
    (id : Bytes) (s : HostState σ) (post : r.method = utf8 "POST") (apart : r.path ≠ utf8 "/metrics") :
    TurnedAway (H.respond id r s).1.status := by
  have other : CrossOrigin.isPreflight r = false := by
    have differs : (utf8 "POST" == utf8 "OPTIONS") = false := by decide
    simp only [CrossOrigin.isPreflight, post, differs, Bool.false_and]
  have route : r.routePath ≠ utf8 "/metrics" :=
    fun reached => apart (path_of_routePath reached (by decide) (by decide))
  obtain ⟨a, m, logs, routed, _, _, status⟩ := route_unreached other unreached id s
  simp only [respond, other, routed, Bool.false_eq_true, if_false]
  exact status post route

end Host
end BoundedRecords.Api
