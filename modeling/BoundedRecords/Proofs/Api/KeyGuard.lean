import BoundedRecords.Proofs.Api.Release

/-! The key. A request without the key of the host reaches no endpoint, whatever its method and path, and
is not answered as a success anywhere in the guarded part of the interface. -/
namespace BoundedRecords.Api

/-! Paths before and after their escapes are resolved. -/

theorem unescape_cons {a : UInt8} (plain : a ≠ 0x25) (s : Bytes) : unescape (a :: s) = a :: unescape s := by
  have differs : (a == 0x25) = false := beq_eq_false_iff_ne.mpr plain
  match s with
  | [] => rfl
  | [b] => rfl
  | b :: c :: rest =>
    rw [unescape]
    split
    · simp only [differs, Bool.false_eq_true, if_false]
    · rfl

theorem unescape_append {start : Bytes} (plain : ∀ b ∈ start, b ≠ 0x25) (s : Bytes) :
    unescape (start ++ s) = start ++ unescape s := by
  induction start with
  | nil => rfl
  | cons a start ih =>
    rw [List.cons_append, unescape_cons (plain a List.mem_cons_self),
      ih fun b found => plain b (List.mem_cons_of_mem a found)]
    rfl

/-- A route that begins without escapes is reached only under a path that begins the same way. -/
theorem path_start {r : Request} {start : Bytes} (reached : start <+: r.routePath)
    (plain : ∀ b ∈ start, b ≠ 0x25) (below : ¬ start <+: utf8 "/") : start <+: r.path := by
  have decoded : r.path = unescape (writtenPath r.target) := rfl
  simp only [Request.routePath] at reached
  split at reached
  · split at reached
    · exact absurd reached below
    · exact reached
  · split at reached
    · exact absurd reached below
    · obtain ⟨rest, split⟩ := reached
      rw [decoded, ← split, unescape_append plain]
      exact ⟨_, rfl⟩

theorem isApiPath_of_swagger {path : Bytes} (described : utf8 "/swagger/" <+: path) : isApiPath path = false := by
  obtain ⟨rest, rfl⟩ := described
  rfl

namespace Host

variable {σ : Type} {H : Host σ} {r : Request}

theorem target?_rejected (rejected : H.admits r = false) : H.target? r = none := by
  cases reached : H.target? r with
  | none => rfl
  | some e =>
    obtain ⟨_, _, _, admitted⟩ := target?_eq_some reached
    rw [rejected] at admitted
    cases admitted

/-- Under a path of the guarded part, written in an unusual way or not, nothing but an endpoint answers. -/
theorem route_api_unreached (other : CrossOrigin.isPreflight r = false) (unreached : H.target? r = none)
    (api : isApiPath r.path = true ∨ isApiPath r.routePath = true) (id : Bytes) (s : HostState σ) :
    ∃ a t logs, H.route id r s = ⟨.ok a, t, logs⟩ ∧ TurnedAway a.status := by
  cases routed : isApiPath r.routePath with
  | true =>
    obtain ⟨a, m, logs, answered, _, status, _⟩ := route_unreached other unreached id s
    exact ⟨a, _, logs, answered, status routed⟩
  | false =>
    have guarded : isApiPath r.path = true := by simpa [routed] using api
    have apart : (r.routePath == utf8 "/metrics") = false := by
      rw [beq_eq_false_iff_ne]
      intro metrics
      rw [path_of_routePath metrics (by decide) (by decide)] at guarded
      exact absurd guarded (by decide)
    have described : (utf8 "/swagger/").isPrefixOf r.routePath = false := by
      rw [Bool.eq_false_iff]
      intro start
      have plain : ∀ b ∈ utf8 "/swagger/", b ≠ 0x25 := by decide +kernel
      have pages := path_start ( List.isPrefixOf_iff_prefix.mp start) plain (by decide)
      rw [isApiPath_of_swagger pages] at guarded
      cases guarded
    simp only [route, apart, routed, described, Bool.false_eq_true, if_false]
    split
    · exact ⟨_, _, _, rfl, .inr (.inr rfl)⟩
    · exact ⟨_, _, _, rfl, .inr (.inl rfl)⟩

theorem serve_api_unreached (other : CrossOrigin.isPreflight r = false) (unreached : H.target? r = none)
    (api : isApiPath r.path = true ∨ isApiPath r.routePath = true) (fresh : Bytes) (s : HostState σ) :
    TurnedAway (H.serve fresh r s).answer.status := by
  obtain ⟨a, t, logs, routed, status⟩ := route_api_unreached other unreached api (requestId fresh r) s
  simp only [serve, respond, other, routed, Bool.false_eq_true, if_false]
  exact status

end Host

/-- No handler ran from one state to the other: all that handlers change is as it was. -/
structure Untouched {σ : Type} (s t : HostState σ) : Prop where
  storage : t.storage = s.storage
  created : t.metrics.created = s.metrics.created
  health : t.metrics.health = s.metrics.health
  requests : t.metrics.requests = s.metrics.requests
  durations : t.metrics.durations = s.metrics.durations
  inFlight : t.metrics.inFlight = s.metrics.inFlight
  inUse : t.metrics.inUse = s.metrics.inUse
  limit : t.metrics.limit = s.metrics.limit

theorem serve_untouched {σ : Type} {H : Host σ} {r : Request} (unreached : H.target? r = none) (fresh : Bytes)
    (s : HostState σ) : Untouched s (H.serve fresh r s).state := by
  obtain ⟨storage, metrics⟩ := Host.respond_unreached unreached (requestId fresh r) s
  have served : (H.serve fresh r s).state = (H.respond (requestId fresh r) r s).2.1 := rfl
  rw [← served] at storage metrics
  rcases metrics with same | ⟨success, auth⟩
  · exact ⟨storage, by rw [same], by rw [same], by rw [same], by rw [same], by rw [same], by rw [same], by rw [same]⟩
  · exact ⟨storage, by rw [auth]; rfl, by rw [auth]; rfl, by rw [auth]; rfl, by rw [auth]; rfl, by rw [auth]; rfl,
      by rw [auth]; rfl, by rw [auth]; rfl⟩

/-- No request gets past the key of a host. Without it no handler runs, no call is made on the allocator,
and under the guarded paths there is no success but the answer to a preflight. -/
theorem key_guards_every_request {σ : Type} (H : Host σ) (fresh : Bytes) (r : Request) (s : HostState σ)
    (keyed : H.apiKey ≠ []) (wrong : r.header "X-Api-Key" ≠ H.apiKey) :
    H.target? r = none ∧ Untouched s (H.serve fresh r s).state ∧
    (∀ A, H.maker = .ofAllocator A → callsOf A H.apiKey H.info fresh r s = []) ∧
    ((isApiPath r.path = true ∨ isApiPath r.routePath = true) → CrossOrigin.isPreflight r = false →
      ¬ (200 ≤ (H.serve fresh r s).answer.status ∧ (H.serve fresh r s).answer.status < 300)) := by
  have rejected : H.admits r = false := by
    simp only [Host.admits, Bool.or_eq_false_iff, List.isEmpty_eq_false_iff, beq_eq_false_iff_ne]
    exact ⟨keyed, wrong⟩
  have unreached := Host.target?_rejected rejected
  refine ⟨unreached, serve_untouched unreached fresh s, ?_, ?_⟩
  · intro A made
    have unordered : (hostOf A H.apiKey H.info).order? r = none := by
      have same : hostOf A H.apiKey H.info = H := by rw [hostOf, ← made]
      rw [same, Host.order?, unreached]
    exact Host.callsOf_unordered unordered fresh s
  · intro api other
    rcases Host.serve_api_unreached other unreached api fresh s with status | status | status <;>
      rw [status] <;> decide

/-- The right key in second place does not help. -/
theorem key_guards_second_value :
    let H := hostOf Budget.allocator (utf8 "secret") .default
    let r : Request := ⟨utf8 "POST", utf8 "/api/v1/records",
      [(utf8 "x-api-key", utf8 "guess"), (utf8 "X-API-Key", utf8 "secret")], utf8 "\x7b\"name\":\"A\"\x7d"⟩
    let s : HostState Budget := ⟨Budget.new 1000, .new⟩
    Untouched s (H.serve [] r s).state ∧ callsOf Budget.allocator (utf8 "secret") .default [] r s = [] ∧
      ¬ (200 ≤ (H.serve [] r s).answer.status ∧ (H.serve [] r s).answer.status < 300) := by
  intro H r s
  have guards := key_guards_every_request H [] r s (by decide) (by decide)
  exact ⟨guards.2.1, guards.2.2.1 Budget.allocator rfl, guards.2.2.2 (.inl (by decide)) (by decide)⟩

end BoundedRecords.Api
