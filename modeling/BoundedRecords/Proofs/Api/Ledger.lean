import BoundedRecords.Proofs.Api.Counting
import BoundedRecords.Proofs.Api.Joining

/-! The counters of records and keys are a ledger of the answers. From a fresh start they tell how many records were
answered, how many answers told of a shortage, and how many requests brought the key or a wrong one, for every
sequence of requests. -/
namespace BoundedRecords

theorem Binary64.roundNat_of_small {n : Nat} (small : n < 2 ^ 53) : roundNat n = n := by
  have bits : n.log2 - 52 = 0 := by
    by_cases zero : n = 0
    · rw [zero]
      rfl
    · have few : n.log2 < 53 := (Nat.log2_lt zero).mpr small
      omega
  simp only [roundNat, ofNat, bits]
  simp [floor, roundDiv, Nat.mod_one]

namespace Api

namespace Metrics

theorem recordCreate_created {n : Nat} (small : n < 2 ^ 53) (success : Bool) (m : Metrics) :
    (m.recordCreate success n).1.created = count n (outcome success) m.created := by
  have counted : (m.recordCreate success n).1 = m.countCreated success (Binary64.roundNat n) := rfl
  rw [counted, Binary64.roundNat_of_small small]
  rfl

theorem outcome_inj {b c : Bool} : outcome b = outcome c ↔ b = c := by
  revert b c
  decide

/-- The records made, or the requests for records that were refused. -/
def createdCount (success : Bool) (m : Metrics) : Nat := Tally.read 0 (outcome success) m.created

/-- The requests that brought the key, or a wrong one. -/
def authCount (success : Bool) (m : Metrics) : Nat := Tally.read 0 (outcome success) m.auth

theorem read_outcome (n : Nat) (success other : Bool) (t : Tally Nat) :
    Tally.read 0 (outcome other) (count n (outcome success) t) =
      Tally.read 0 (outcome other) t + if success == other then n else 0 := by
  rw [read_count]
  simp only [outcome_inj, beq_iff_eq, @eq_comm _ other]

end Metrics

/-! Records. -/

/-- The number of records in the body of an answer: a batch lists them, and any other data is one. -/
def recordsShown (body : Bytes) : Nat :=
  match (Json.parse body).bind (Json.get? "data") with
  | none => 0
  | some data =>
    match data.get? "records" with
    | some (.array items) => items.length
    | _ => 1

/-- The number of records that an answer gives to a request for them. -/
def recordsGiven (r : Request) (a : Answer) : Nat :=
  if r.method = utf8 "POST" ∧ (r.path = utf8 Endpoint.record.path ∨ r.path = utf8 Endpoint.batch.path) ∧ a.status = 200
  then recordsShown a.body
  else 0

theorem recordsGiven_of_posts {r : Request} {e : Endpoint} {a : Answer} (posts : PostsTo r e) (ok : a.status = 200) :
    recordsGiven r a = recordsShown a.body := by
  obtain ⟨makes, method, path⟩ := posts
  apply if_pos
  rcases makes with rfl | rfl
  · exact ⟨method, .inl path, ok⟩
  · exact ⟨method, .inr path, ok⟩

theorem recordsGiven_eq_zero {r : Request} {a : Answer} (none : ∀ e, PostsTo r e → a.status ≠ 200) :
    recordsGiven r a = 0 := by
  apply if_neg
  rintro ⟨method, path | path, ok⟩
  · exact none .record ⟨.inl rfl, method, path⟩ ok
  · exact none .batch ⟨.inr rfl, method, path⟩ ok

theorem recordsShown_of_view {body : Bytes} {o : Order}
    (parsed : Json.parse body = some (.record [("success", .bool true), ("data", o.view)])) :
    recordsShown body = o.inputs.length := by
  have data : Json.get? "data" (.record [("success", .bool true), ("data", o.view)]) = some o.view := rfl
  simp only [recordsShown, parsed, Option.bind_some, data]
  cases o with
  | one i => rfl
  | many inputs =>
    simp only [Order.view, (view_many inputs).2, List.length_map]
    rfl

/-! Names that are read from a body are text, so that an answer with their records can be read back. -/

theorem valid_of_readOne {body : Bytes} {i : PersonInput} (read : readOne body = .ok i) : Utf8.valid i.name = true := by
  obtain ⟨v, ⟨t, tail, text, _⟩, decoded⟩ := carries_of_readBody ((readOne_eq_ok_iff _ _).mp read)
  exact valid_of_recordOfJson text.spellable decoded

theorem valid_of_readMany {body : Bytes} {inputs : List PersonInput} (read : readMany body = .ok inputs) :
    ∀ i ∈ inputs, Utf8.valid i.name = true := by
  obtain ⟨whole, some, _⟩ := (readMany_eq_ok_iff _ _).mp read
  obtain ⟨v, ⟨t, tail, text, _⟩, decoded⟩ := carries_of_readBody whole
  have spellable := text.spellable
  cases spellable with
  | null => exact absurd (List.map_eq_nil_iff.mp (Option.some.inj decoded).symm) some
  | array items =>
    have asked := mapM_eq_some_iff.mp decoded
    rw [List.forall₂_map_right_iff] at asked
    exact valid_asked items asked
  | bool _ => cases decoded
  | number _ => cases decoded
  | string _ => cases decoded
  | object _ _ => cases decoded

namespace Host

variable {σ : Type}

theorem valid_of_order? {H : Host σ} {r : Request} {o : Order} (ordered : H.order? r = some o) :
    ∀ i ∈ o.inputs, Utf8.valid i.name = true := by
  unfold order? at ordered
  split at ordered
  · cases read : readOne r.body with
    | error e => simp [read, Except.toOption] at ordered
    | ok i =>
      simp only [read, Except.toOption, Option.map_some, Option.some.injEq] at ordered
      subst ordered
      exact List.forall_mem_singleton.mpr (valid_of_readOne read)
  · cases read : readMany r.body with
    | error e => simp [read, Except.toOption] at ordered
    | ok inputs =>
      simp only [read, Except.toOption, Option.map_some, Option.some.injEq] at ordered
      subst ordered
      exact valid_of_readMany read
  · cases ordered

theorem report_created (H : Host σ) (storage : σ) (m : Metrics) : (H.report storage m).metrics.created = m.created := by
  unfold report
  split <;> rfl

theorem serve_reached_created {H : Host σ} {r : Request} {e : Endpoint} (reached : H.target? r = some e) (fresh : Bytes)
    (s : HostState σ) :
    ∃ id m, m.created = s.metrics.created ∧
      (H.serve fresh r s).state.metrics.created = (e.handle H id r.body ⟨s.storage, m⟩).state.metrics.created := by
  refine ⟨requestId fresh r, s.metrics.enter (utf8 e.method) (utf8 e.path), rfl, ?_⟩
  obtain ⟨_, _, metrics⟩ := H.endpoint_metrics e (requestId fresh r) r.body s
  rw [serve_reached_state reached, counted_metrics, metrics]

theorem handle_unordered_created {H : Host σ} {r : Request} {e : Endpoint} (reached : H.target? r = some e)
    (unordered : H.order? r = none) (id : Bytes) (s : HostState σ) :
    (e.handle H id r.body s).state.metrics.created = s.metrics.created := by
  cases e with
  | health => rfl
  | layout => rfl
  | record =>
    cases read : readOne r.body with
    | ok i => simp [order?, reached, read, Except.toOption] at unordered
    | error e => simp only [Endpoint.handle, createOne, read, answered]
  | batch =>
    cases read : readMany r.body with
    | ok inputs => simp [order?, reached, read, Except.toOption] at unordered
    | error e => simp only [Endpoint.handle, createMany, read, answered]

theorem serve_unordered_created {H : Host σ} {r : Request} (unordered : H.order? r = none) (fresh : Bytes)
    (s : HostState σ) : (H.serve fresh r s).state.metrics.created = s.metrics.created := by
  cases reached : H.target? r with
  | none => exact (serve_untouched reached fresh s).created
  | some e =>
    obtain ⟨id, m, before, created⟩ := serve_reached_created reached fresh s
    rw [created, handle_unordered_created reached unordered, before]

theorem describe_not_short (H : Host σ) (path : Bytes) (s : HostState σ) :
    ∃ a logs, H.describe path s = ⟨.ok a, s, logs⟩ ∧ a.status ≠ 503 := by
  unfold describe
  split
  · exact ⟨_, _, rfl, by decide⟩
  · split
    · split
      · exact ⟨_, _, rfl, (by decide : (200 : Nat) ≠ 503)⟩
      · exact ⟨_, _, rfl, by decide⟩
    · exact ⟨_, _, rfl, by decide⟩

/-- What lies outside of the guarded part changes nothing, and never tells of a shortage. -/
theorem route_outside {r : Request} (outside : isApiPath r.routePath = false) (H : Host σ) (id : Bytes) (s : HostState σ) :
    ∃ a logs, H.route id r s = ⟨.ok a, s, logs⟩ ∧ a.status ≠ 503 := by
  simp only [route, outside, Bool.false_eq_true, if_false]
  split
  · exact ⟨_, _, rfl, by decide⟩
  · split
    · exact ⟨_, _, rfl, (by decide : (200 : Nat) ≠ 503)⟩
    · split
      · split
        · exact H.describe_not_short r.path s
        · exact ⟨_, _, rfl, by decide⟩
      · exact ⟨_, _, rfl, by decide⟩

theorem respond_unreached_not_short {H : Host σ} {r : Request} (unreached : H.target? r = none) (id : Bytes)
    (s : HostState σ) : (H.respond id r s).1.status ≠ 503 := by
  cases preflight : CrossOrigin.isPreflight r with
  | true =>
    simp only [respond, preflight, if_true]
    decide
  | false =>
    cases inside : isApiPath r.routePath with
    | true =>
      obtain ⟨a, m, logs, routed, _, api, _⟩ := route_unreached preflight unreached id s
      simp only [respond, preflight, routed, Bool.false_eq_true, if_false]
      rcases api inside with status | status | status <;> rw [status] <;> decide
    | false =>
      obtain ⟨a, logs, routed, status⟩ := route_outside inside H id s
      simp only [respond, preflight, routed, Bool.false_eq_true, if_false]
      exact status

variable {A : Allocator σ} {apiKey : Bytes} {info : ApiInfo}

theorem serve_unordered_not_short {r : Request} (unordered : (hostOf A apiKey info).order? r = none) (fresh : Bytes)
    (s : HostState σ) : ((hostOf A apiKey info).serve fresh r s).answer.status ≠ 503 := by
  cases reached : (hostOf A apiKey info).target? r with
  | none => exact respond_unreached_not_short reached (requestId fresh r) s
  | some e =>
    rcases serve_unordered_endpoint reached unordered fresh s with status | status <;> rw [status] <;> decide

theorem serve_ordered_created (answers : A.Answers) {r : Request} {o : Order}
    (ordered : (hostOf A apiKey info).order? r = some o) (fresh : Bytes) (s : HostState σ) :
    let x := (hostOf A apiKey info).serve fresh r s
    x.answer.status = 200 ∧ recordsShown x.answer.body = o.inputs.length ∧
      x.state.metrics.created = Metrics.count o.inputs.length (Metrics.outcome true) s.metrics.created ∨
    x.answer.status = 503 ∧ x.state.metrics.created = Metrics.count 1 (Metrics.outcome false) s.metrics.created := by
  intro x
  obtain ⟨reached, few, handled⟩ := order?_target ordered
  obtain ⟨id, m, before, created⟩ := serve_reached_created reached fresh s
  rw [handled, fulfil_eq] at created
  rcases A.grants_or_stops o.inputs.length s.storage with grants | ⟨e, refuses⟩ | breaks
  · left
    obtain ⟨ok, parsed⟩ := serve_granted ordered (valid_of_order? ordered) fresh s grants
    obtain ⟨t, done⟩ := Factory.createAll_granted o.inputs grants
    refine ⟨ok, recordsShown_of_view parsed, created.trans ?_⟩
    have small : o.inputs.length < 2 ^ 53 := Nat.lt_of_le_of_lt few (by decide)
    simp only [done, conclude, report_created, List.length_map, Metrics.recordCreate_created small, before]
  · right
    obtain ⟨t, refused⟩ := Factory.createOnto_refused refuses []
    refine ⟨(serve_refused ordered refuses fresh).1, created.trans ?_⟩
    simp only [Factory.createAll, refused, conclude, report_created]
    rw [← before]
    exact Metrics.recordCreate_created (by decide) false m
  · exact absurd breaks (answers.not_breaks _ _)

/-- What a request adds to the counter of records is what its answer tells. -/
theorem serve_createdCount (answers : A.Answers) (fresh : Bytes) (r : Request) (s : HostState σ) :
    let x := (hostOf A apiKey info).serve fresh r s
    x.state.metrics.createdCount true = s.metrics.createdCount true + recordsGiven r x.answer ∧
      x.state.metrics.createdCount false =
        s.metrics.createdCount false + if x.answer.status = 503 then 1 else 0 := by
  intro x
  cases ordered : (hostOf A apiKey info).order? r with
  | none =>
    -- No answer to a request that orders nothing shows records, at whatever path it was sent.
    have given : recordsGiven r x.answer = 0 := by
      apply recordsGiven_eq_zero
      intro e posts
      exact ((serve_unordered ordered fresh s).2.2 posts.2.1 (postsTo_apart posts)).1
    have short : x.answer.status ≠ 503 := serve_unordered_not_short ordered fresh s
    have created : x.state.metrics.created = s.metrics.created := serve_unordered_created ordered fresh s
    simp [Metrics.createdCount, created, given, short]
  | some o =>
    rcases serve_ordered_created answers ordered fresh s with ⟨ok, records, created⟩ | ⟨short, created⟩
    · have given := (recordsGiven_of_posts (postsTo_of_ordered ordered) ok).trans records
      simp [x, Metrics.createdCount, created, given, ok, Metrics.read_outcome]
    · have given : recordsGiven r x.answer = 0 := by
        apply recordsGiven_eq_zero
        intro e _ ok
        exact absurd (short.symm.trans ok) (by decide)
      simp [x, Metrics.createdCount, created, given, short, Metrics.read_outcome]

end Host

/-! Keys. -/

/-- Whether a request is handed to the guarded part of the interface. -/
def Request.isGuarded (r : Request) : Bool :=
  !CrossOrigin.isPreflight r && knownMethods.contains r.method && isApiPath r.routePath

/-- Whether a request is compared with the key. -/
def Request.bringsKey (r : Request) : Bool := r.isGuarded && !(r.header "X-Api-Key").isEmpty

namespace Host

variable {σ : Type}

theorem serve_state (H : Host σ) (fresh : Bytes) (r : Request) (s : HostState σ) :
    (H.serve fresh r s).state = (H.respond (requestId fresh r) r s).2.1 := rfl

theorem respond_guarded {r : Request} (inside : r.isGuarded = true) (H : Host σ) (id : Bytes) (s : HostState σ) :
    (H.respond id r s).2.1 = (H.guarded r (H.dispatch id r) s).state := by
  simp only [Request.isGuarded, Bool.and_eq_true, Bool.not_eq_true'] at inside
  obtain ⟨⟨other, known⟩, api⟩ := inside
  have apart : (r.routePath == utf8 "/metrics") = false := by
    rw [beq_eq_false_iff_ne]
    intro metrics
    rw [metrics] at api
    exact absurd api (by decide)
  simp only [respond, route, other, known, api, apart, Bool.not_true, Bool.false_eq_true, if_false, if_true]

theorem respond_unguarded {r : Request} (outside : r.isGuarded = false) (H : Host σ) (id : Bytes) (s : HostState σ) :
    (H.respond id r s).2.1 = s := by
  cases preflight : CrossOrigin.isPreflight r with
  | true => simp only [respond, preflight, if_true]
  | false =>
    cases api : isApiPath r.routePath with
    | false =>
      obtain ⟨a, logs, routed, _⟩ := route_outside api H id s
      simp only [respond, preflight, routed, Bool.false_eq_true, if_false]
    | true =>
      have unknown : knownMethods.contains r.method = false := by
        simpa [Request.isGuarded, preflight, api] using outside
      simp only [respond, route, preflight, unknown, Bool.not_false, Bool.false_eq_true, if_false, if_true]
      rfl

/-- The guard tells a wrong key by the status of the answer, so that what it guards must not deny a request itself. -/
theorem guarded_auth {H : Host σ} (keyed : H.apiKey ≠ []) {r : Request} {inner : HostState σ → Handled σ} {s : HostState σ}
    {a : Answer} (given : (inner s).result = .ok a) (passed : a.status ≠ 401)
    (kept : (inner s).state.metrics.auth = s.metrics.auth) :
    (H.guarded r inner s).state.metrics.auth =
      if (r.header "X-Api-Key").isEmpty then s.metrics.auth
      else Metrics.count 1 (Metrics.outcome (r.header "X-Api-Key" == H.apiKey)) s.metrics.auth := by
  have closed : H.apiKey.isEmpty = false := by simpa using keyed
  have success : (a.status != 401) = true := by simpa using passed
  simp only [guarded, Metrics.instrumentAuth, checked, closed, Bool.false_eq_true, if_false]
  by_cases missing : (r.header "X-Api-Key").isEmpty = true
  · simp only [missing, if_true]
    rfl
  · simp only [missing, Bool.false_eq_true, if_false]
    cases right : r.header "X-Api-Key" == H.apiKey with
    | true => simp only [if_true, given, Bool.not_false, Metrics.recordAuth, Metrics.seenStatus_denied, success, kept]
    | false => rfl

variable {A : Allocator σ} {apiKey : Bytes} {info : ApiInfo}

theorem fulfil_answered (answers : A.Answers) (id : Bytes) (m : Metrics) (storage : σ) (o : Order) :
    ∃ a, ((hostOf A apiKey info).fulfil id m storage o).result = .ok a := by
  cases given : ((hostOf A apiKey info).fulfil id m storage o).result with
  | error f =>
    have breaks := (fulfil_error_iff id m storage o).mp ⟨f, given⟩
    exact absurd breaks (answers.not_breaks _ _)
  | ok a => exact ⟨a, rfl⟩

theorem handle_answered (answers : A.Answers) (apiKey : Bytes) (info : ApiInfo) (e : Endpoint) (id body : Bytes)
    (s : HostState σ) :
    ∃ a, (e.handle (hostOf A apiKey info) id body s).result = .ok a := by
  cases e with
  | health => exact ⟨_, rfl⟩
  | layout => exact ⟨_, rfl⟩
  | record =>
    simp only [Endpoint.handle, createOne]
    split
    · exact ⟨_, rfl⟩
    · rename_i i _
      exact fulfil_answered answers id s.metrics s.storage (.one i)
  | batch =>
    simp only [Endpoint.handle, createMany]
    split
    · exact ⟨_, rfl⟩
    · rename_i inputs _
      exact fulfil_answered answers id s.metrics s.storage (.many inputs)

theorem dispatch_answered (answers : A.Answers) (apiKey : Bytes) (info : ApiInfo) (id : Bytes) (r : Request)
    (s : HostState σ) : ∃ a, ((hostOf A apiKey info).dispatch id r s).result = .ok a ∧ a.status ≠ 401 := by
  unfold dispatch
  split
  · exact ⟨_, rfl, by decide⟩
  · rename_i e _
    split
    · obtain ⟨a, given⟩ := handle_answered answers apiKey info e id r.body
        { s with metrics := s.metrics.enter (utf8 e.method) (utf8 e.path) }
      refine ⟨a, given, ?_⟩
      rcases handle_announced _ e id r.body _ a given with status | status | status | status <;> rw [status] <;> decide
    · exact ⟨_, rfl, (by decide : (405 : Nat) ≠ 401)⟩

theorem dispatch_auth (H : Host σ) (id : Bytes) (r : Request) (s : HostState σ) :
    (H.dispatch id r s).state.metrics.auth = s.metrics.auth := by
  unfold dispatch
  split
  · rfl
  · rename_i e _
    split
    · exact H.endpoint_auth e id r.body s
    · rfl

/-- What a request adds to the counters of keys, whatever its answer is. -/
theorem serve_authCount (answers : A.Answers) (keyed : apiKey ≠ []) (fresh : Bytes) (r : Request) (s : HostState σ)
    (right : Bool) :
    ((hostOf A apiKey info).serve fresh r s).state.metrics.authCount right =
      s.metrics.authCount right + if r.bringsKey && (r.header "X-Api-Key" == apiKey) == right then 1 else 0 := by
  rw [serve_state]
  cases inside : r.isGuarded with
  | false =>
    rw [respond_unguarded inside]
    simp [Request.bringsKey, inside]
  | true =>
    obtain ⟨a, given, passed⟩ := dispatch_answered answers apiKey info (requestId fresh r) r s
    rw [respond_guarded inside, Metrics.authCount, guarded_auth keyed given passed (dispatch_auth _ _ r s)]
    by_cases missing : (r.header "X-Api-Key").isEmpty = true
    · simp [Request.bringsKey, missing, Metrics.authCount]
    · rw [if_neg missing, Metrics.read_outcome]
      simp [Request.bringsKey, missing, inside, Metrics.authCount, hostOf]

theorem serve_auth_open {H : Host σ} (unkeyed : H.apiKey = []) (fresh : Bytes) (r : Request) (s : HostState σ) :
    (H.serve fresh r s).state.metrics.auth = s.metrics.auth := by
  rw [serve_state]
  cases inside : r.isGuarded with
  | false => rw [respond_unguarded inside]
  | true =>
    rw [respond_guarded inside]
    simp only [guarded, unkeyed, List.isEmpty_nil, if_true]
    exact H.dispatch_auth _ r s

theorem after_auth_open {H : Host σ} (unkeyed : H.apiKey = []) (s : HostState σ) (requests : List (Bytes × Request)) :
    (H.after s requests).metrics.auth = s.metrics.auth := by
  induction requests generalizing s with
  | nil => rfl
  | cons x requests ih =>
    obtain ⟨fresh, r⟩ := x
    rw [after_cons, ih, serve_auth_open unkeyed]

end Host

/-- The counters tell the truth about the answers. After any requests to a fresh host, whose allocator answers every call:
as many records are counted as the successful answers to requests for records show, as many refusals as there are answers
that tell of a shortage, and, if there is a key, every request to the guarded part that brought one, by whether it was the
right one. -/
theorem counters_match_answers {σ : Type} (A : Allocator σ) (answers : A.Answers) (apiKey : Bytes) (info : ApiInfo)
    (storage : σ) (requests : List (Bytes × Request)) :
    let H := hostOf A apiKey info
    let m := (H.after (.new storage) requests).metrics
    let served := H.transcript (.new storage) requests
    m.createdCount true = (served.map fun x => recordsGiven x.1 x.2.answer).sum ∧
    m.createdCount false = served.countP (fun x => x.2.answer.status = 503) ∧
    (apiKey ≠ [] → ∀ right, m.authCount right =
      served.countP fun x => x.1.bringsKey && (x.1.header "X-Api-Key" == apiKey) == right) ∧
    (apiKey = [] → ∀ right, m.authCount right = 0) := by
  intro H m served
  -- Every counter is at zero in a fresh host, so that it stands at what the requests have added.
  refine ⟨?_, ?_, ?_, ?_⟩
  · refine (Host.after_total (Metrics.createdCount true) recordsGiven ?_).trans (Nat.zero_add _)
    intro before fresh r _ _
    exact (Host.serve_createdCount answers fresh r _).1
  · refine (Host.after_counted (Metrics.createdCount false) (fun _ a => decide (a.status = 503)) ?_).trans (Nat.zero_add _)
    intro before fresh r _ _
    simpa only [decide_eq_true_eq] using (Host.serve_createdCount answers fresh r _).2
  · intro keyed right
    refine (Host.after_counted (Metrics.authCount right)
      (fun r _ => r.bringsKey && (r.header "X-Api-Key" == apiKey) == right) ?_).trans (Nat.zero_add _)
    intro before fresh r _ _
    exact Host.serve_authCount answers keyed fresh r _ right
  · intro unkeyed right
    have same : m.auth = [] := Host.after_auth_open (H := H) unkeyed (.new storage) requests
    rw [Metrics.authCount, same]
    rfl

/-- A quota of two records and a key: a batch of two, a record that is refused, a wrong key, an unknown path with the right
key, no key, and a look at the counters. -/
theorem counters_match_answers_mixed :
    let key := (utf8 "X-API-Key", utf8 "k")
    let requests : List (Bytes × Request) := [
      ([], ⟨utf8 "POST", utf8 "/api/v1/records/batch", [key], utf8 "[\x7b\"name\":\"A\"\x7d,\x7b\"name\":\"B\"\x7d]"⟩),
      ([], ⟨utf8 "POST", utf8 "/api/v1/records", [key], utf8 "\x7b\"name\":\"A\"\x7d"⟩),
      ([], ⟨utf8 "POST", utf8 "/api/v1/records", [(utf8 "X-API-Key", utf8 "no"), key], utf8 "\x7b\"name\":\"A\"\x7d"⟩),
      ([], ⟨utf8 "GET", utf8 "/api/v1/none", [key], []⟩),
      ([], ⟨utf8 "GET", utf8 "/api/v1/health", [], []⟩),
      ([], ⟨utf8 "GET", utf8 "/metrics", [key], []⟩)]
    let m := ((hostOf Quota.allocator (utf8 "k") .default).after (.new ⟨2, 0⟩) requests).metrics
    m.createdCount true = 2 ∧ m.createdCount false = 1 ∧ m.authCount true = 3 ∧ m.authCount false = 1 := by
  intro key requests m
  obtain ⟨made, short, keys, _⟩ :=
    counters_match_answers Quota.allocator quota_answers (utf8 "k") .default ⟨2, 0⟩ requests
  have keyed : utf8 "k" ≠ [] := by decide
  refine ⟨made.trans ?_, short.trans ?_, (keys keyed true).trans ?_, (keys keyed false).trans ?_⟩ <;> decide +kernel

end Api
end BoundedRecords
