import BoundedRecords.Api.Host
import BoundedRecords.Proofs.Log.Sampling
import Mathlib.Data.List.Forall2

/-! The access log. The host names each request in its answer and leaves one entry about it in the log, last of all that
the request logs. What stands behind the host does neither, so the entries and the answers match one to one. -/
namespace BoundedRecords.Api

/-- The values that headers give under a name. -/
def headerValues (name : String) (headers : List (String × Bytes)) : List Bytes :=
  (headers.filter fun h => h.1 == name).map Prod.snd

theorem headerValues_append (name : String) (first second : List (String × Bytes)) :
    headerValues name (first ++ second) = headerValues name first ++ headerValues name second := by
  simp only [headerValues, List.filter_append, List.map_append]

def idHeader : String := "X-Request-Id"

theorem CrossOrigin.requestHeaders_unnamed (r : Request) : headerValues idHeader (requestHeaders r) = [] := by
  unfold requestHeaders
  split <;> rfl

theorem CrossOrigin.preflightHeaders_unnamed (r : Request) : headerValues idHeader (preflightHeaders r) = [] := by
  simp only [preflightHeaders]
  split
  · rfl
  · split <;> rfl

/-! What handlers leave to the host. -/

/-- A request was dealt with, and its marks are left to the host: the answer does not name it, and nothing is logged at
the level of the access log. -/
structure Handled.Unmarked {σ : Type} (h : Handled σ) : Prop where
  headers : ∀ a, h.result = .ok a → headerValues idHeader a.headers = []
  logs : ∀ e ∈ h.logs, e.level ≠ .info

theorem unmarked_ok {σ : Type} {a : Answer} {s : HostState σ} {logs : List LogEntry}
    (unnamed : headerValues idHeader a.headers = []) (quiet : ∀ e ∈ logs, e.level ≠ .info) :
    Handled.Unmarked ⟨.ok a, s, logs⟩ := by
  refine ⟨?_, quiet⟩
  rintro _ ⟨⟩
  exact unnamed

theorem unmarked_answered {σ : Type} {a : Answer} (unnamed : headerValues idHeader a.headers = []) (s : HostState σ) :
    (answered a s).Unmarked :=
  unmarked_ok unnamed (List.forall_mem_nil _)

theorem refusal_unnamed (e : BoundedRecords.Failure) : headerValues idHeader (refusal e).headers = [] := by
  unfold refusal
  split <;> rfl

namespace Host

variable {σ : Type} (H : Host σ)

theorem refusalEntry_level (id : Bytes) (e : BoundedRecords.Failure) : (refusalEntry id e).level ≠ .info := by
  unfold refusalEntry
  split <;> exact nofun

theorem unmarked_conclude {α : Type} (id : Bytes) (people : α → List Person) (view : α → Json) (m : Metrics)
    (outcome : Outcome σ α) : (H.conclude id people view m outcome).Unmarked := by
  cases outcome with
  | done made t => exact unmarked_ok rfl (List.forall_mem_nil _)
  | refused e t => exact unmarked_ok (refusal_unnamed e) (List.forall_mem_singleton.mpr (refusalEntry_level id e))
  | broken f t => exact ⟨fun _ impossible => (nomatch impossible), List.forall_mem_nil _⟩

theorem unmarked_handle (e : Endpoint) (id body : Bytes) (s : HostState σ) : (e.handle H id body s).Unmarked := by
  cases e with
  | health => exact unmarked_ok rfl (List.forall_mem_nil _)
  | layout => exact unmarked_answered rfl s
  | record =>
    simp only [Endpoint.handle, createOne]
    split
    · exact unmarked_answered rfl s
    · exact H.unmarked_conclude ..
  | batch =>
    simp only [Endpoint.handle, createMany]
    split
    · exact unmarked_answered rfl s
    · exact H.unmarked_conclude ..

theorem unmarked_dispatch (id : Bytes) (r : Request) (s : HostState σ) : (H.dispatch id r s).Unmarked := by
  unfold dispatch
  split
  · exact unmarked_answered rfl s
  · split
    · rename_i e _ _
      -- Counting the request changes neither the answer nor the log.
      have handled := H.unmarked_handle e id r.body { s with metrics := s.metrics.enter (utf8 e.method) (utf8 e.path) }
      exact ⟨handled.headers, handled.logs⟩
    · exact unmarked_answered rfl s

section

variable {inner : HostState σ → Handled σ} {s : HostState σ}

theorem unmarked_checked (key : Bytes) (unmarked : (inner s).Unmarked) : (H.checked key inner s).Unmarked := by
  unfold checked
  split
  · exact unmarked_answered rfl s
  · split
    · exact unmarked
    · exact unmarked_answered rfl s

theorem unmarked_guarded (r : Request) (unmarked : (inner s).Unmarked) : (H.guarded r inner s).Unmarked := by
  have asked := H.unmarked_checked (r.header "X-Api-Key") unmarked
  simp only [guarded]
  split
  · exact unmarked
  · simp only [Metrics.instrumentAuth]
    split
    · split
      · exact ⟨asked.headers, asked.logs⟩
      · exact asked
    · exact asked

end

theorem unmarked_describe (path : Bytes) (s : HostState σ) : (H.describe path s).Unmarked := by
  unfold describe
  split
  · exact unmarked_answered rfl s
  · split
    · split
      · exact unmarked_answered rfl s
      · exact unmarked_ok rfl (List.forall_mem_singleton.mpr nofun)
    · exact unmarked_answered rfl s

theorem unmarked_route (id : Bytes) (r : Request) (s : HostState σ) : (H.route id r s).Unmarked := by
  simp only [route]
  split
  · exact unmarked_answered rfl s
  split
  · exact unmarked_answered rfl s
  split
  · exact H.unmarked_guarded r (H.unmarked_dispatch id r s)
  split
  · split
    · exact H.unmarked_describe r.path s
    · exact unmarked_answered rfl s
  · exact unmarked_answered rfl s

theorem respond_unmarked (id : Bytes) (r : Request) (s : HostState σ) :
    headerValues idHeader (H.respond id r s).1.headers = [] ∧ ∀ e ∈ (H.respond id r s).2.2, e.level ≠ .info := by
  unfold respond
  split
  · exact ⟨CrossOrigin.preflightHeaders_unnamed r, List.forall_mem_nil _⟩
  · have routed := H.unmarked_route id r s
    refine ⟨?_, routed.logs⟩
    rw [headerValues_append, CrossOrigin.requestHeaders_unnamed, List.nil_append]
    cases result : (H.route id r s).result with
    | ok a => exact routed.headers a result
    | error f => rfl

end Host

/-! What the host adds. -/

/-- Whether an entry belongs to the access log. -/
def isAccess (e : LogEntry) : Bool := e.isOf .info (utf8 "request")

/-- The access log of some exchanges. -/
def accessLog {σ : Type} (exchanges : List (Exchange σ)) : List LogEntry :=
  (exchanges.flatMap Exchange.logs).filter isAccess

theorem accessLog_cons {σ : Type} (x : Exchange σ) (exchanges : List (Exchange σ)) :
    accessLog (x :: exchanges) = x.logs.filter isAccess ++ accessLog exchanges := by
  rw [accessLog, List.flatMap_cons, List.filter_append]
  rfl

/-- An entry tells of a request and of the answer to it, and bears the name that the answer gives the request: the one
that the caller sent, unless there is none or it is empty, and then the fresh one. The length is that of the body as it
was written, also where the network leaves it out. -/
structure Tells (e : LogEntry) (fresh : Bytes) (r : Request) (a : Answer) : Prop where
  kind : e.level = .info ∧ e.message = utf8 "request"
  distinct : (e.fields.map Prod.fst).Nodup
  method : e.fields.lookup "method" = some (.text r.method)
  path : e.fields.lookup "path" = some (.text r.path)
  status : e.fields.lookup "status" = some (.number a.status)
  bytes : e.fields.lookup "bytes" = some (.number a.body.length)
  name : ∃ id, e.fields.lookup "request_id" = some (.text id) ∧ headerValues idHeader a.headers = [id] ∧
    (r.header "X-Request-Id" ≠ [] → id = r.header "X-Request-Id") ∧ (r.header "X-Request-Id" = [] → id = fresh)

namespace Host

variable {σ : Type} (H : Host σ)

theorem serve_access (fresh : Bytes) (r : Request) (s : HostState σ) :
    (H.serve fresh r s).logs.filter isAccess = [accessEntry (requestId fresh r) r (H.serve fresh r s).answer] := by
  have unmarked := (H.respond_unmarked (requestId fresh r) r s).2
  have others : (H.respond (requestId fresh r) r s).2.2.filter isAccess = [] := by
    rw [List.filter_eq_nil_iff]
    intro e found access
    exact unmarked e found (LogEntry.isOf_iff.mp access).1
  have logs : (H.serve fresh r s).logs = (H.respond (requestId fresh r) r s).2.2 ++
      [accessEntry (requestId fresh r) r (H.serve fresh r s).answer] := rfl
  rw [logs, List.filter_append, others]
  rfl

theorem serve_named (fresh : Bytes) (r : Request) (s : HostState σ) :
    headerValues idHeader (H.serve fresh r s).answer.headers = [requestId fresh r] := by
  have unnamed := (H.respond_unmarked (requestId fresh r) r s).1
  have headers : (H.serve fresh r s).answer.headers =
      [(idHeader, requestId fresh r)] ++ (H.respond (requestId fresh r) r s).1.headers := rfl
  rw [headers, headerValues_append, unnamed]
  rfl

theorem serve_tells (fresh : Bytes) (r : Request) (s : HostState σ) :
    Tells (accessEntry (requestId fresh r) r (H.serve fresh r s).answer) fresh r (H.serve fresh r s).answer := by
  refine ⟨⟨rfl, rfl⟩, ?_, rfl, rfl, rfl, rfl, requestId fresh r, rfl, H.serve_named fresh r s, ?_, ?_⟩
  · simp [accessEntry]
  · intro sent
    simp [requestId, sent]
  · intro missing
    simp [requestId, missing]

/-- One request: among all that it logs, one entry is of the access log, and that one tells of it. -/
def Reported (q : Bytes × Request) (x : Exchange σ) : Prop :=
  ∃ e, x.logs.filter isAccess = [e] ∧ Tells e q.1 q.2 x.answer

theorem serveAll_reported (s : HostState σ) (requests : List (Bytes × Request)) :
    List.Forall₂ Reported requests (H.serveAll s requests) := by
  induction requests generalizing s with
  | nil => exact .nil
  | cons q requests ih =>
    obtain ⟨fresh, r⟩ := q
    exact .cons ⟨_, H.serve_access fresh r s, H.serve_tells fresh r s⟩ (ih (H.serve fresh r s).state)

end Host

theorem accessLog_tells {σ : Type} {requests : List (Bytes × Request)} {exchanges : List (Exchange σ)}
    (reported : List.Forall₂ Host.Reported requests exchanges) :
    List.Forall₂ (fun e x => Tells e x.1.1 x.1.2 x.2.answer) (accessLog exchanges) (requests.zip exchanges) := by
  induction reported with
  | nil => exact .nil
  | cons first _ ih =>
    obtain ⟨e, one, tells⟩ := first
    rw [accessLog_cons, one]
    exact .cons tells ih

/-- A handler that breaks off, a preflight that brings a name of its own, and a path that leads nowhere. -/
example :
    let H : Host Unit := ⟨.ofAllocator Allocator.broken, [], .default⟩
    let requests : List (Bytes × Request) := [
      (utf8 "1", ⟨utf8 "POST", utf8 "/api/v1/records", [], utf8 "\x7b\"name\":\"A\"\x7d"⟩),
      (utf8 "2", ⟨utf8 "OPTIONS", utf8 "/metrics",
        [(utf8 "access-control-request-method", utf8 "GET"), (utf8 "x-request-id", utf8 "mine")], []⟩),
      (utf8 "3", ⟨utf8 "GET", utf8 "/nowhere", [(utf8 "X-Request-ID", [])], []⟩)]
    (accessLog (H.serveAll ⟨(), .new⟩ requests)).map
        (fun e => ["request_id", "status", "bytes"].filterMap fun field => e.fields.lookup field) =
      [[.text (utf8 "1"), .number 500, .number 0], [.text (utf8 "mine"), .number 200, .number 0],
        [.text (utf8 "3"), .number 404, .number 19]] := by
  decide +kernel

/-! What a logger makes of it. -/

theorem length_accessLog {σ : Type} (H : Host σ) (s : HostState σ) (requests : List (Bytes × Request)) :
    (accessLog (H.serveAll s requests)).length = requests.length := by
  have reported := H.serveAll_reported s requests
  rw [(accessLog_tells reported).length_eq, List.length_zip, ← reported.length_eq, Nat.min_self]

/-- The lines of the access log that a logger writes, if all exchanges fall within one second. -/
def accessLines {σ : Type} (g : Logger) (exchanges : List (Exchange σ)) : List LogEntry :=
  (g.written (exchanges.flatMap Exchange.logs)).filter isAccess

theorem accessLines_eq {σ : Type} {g : Logger} (enabled : g.enabled .info = true) (exchanges : List (Exchange σ)) :
    accessLines g exchanges =
      match g.format with
      | .json => Logger.thinned 0 (accessLog exchanges)
      | .console => accessLog exchanges := by
  have kind := g.written_kind .info (utf8 "request") (exchanges.flatMap Exchange.logs)
  rw [if_pos enabled] at kind
  exact kind

/-- Where a log is complete. A logger takes its level from the word for it, unless it is told to write all. Of the entries of
a second it writes all that are loud enough, once and in order, exactly if it writes to the console or no level and
message among them come more than a hundred times. So all requests of a second have their lines exactly if they go to the
console or are no more than a hundred; otherwise the first hundred have one, and every hundredth. -/
theorem log_complete_iff_unrepeated {level format : Bytes} {verbose : Bool} {g : Logger}
    (made : Logger.new level format verbose = .ok g) :
    (∃ l, Level.parse level = .ok l ∧ g.level = if verbose then .debug else l) ∧
    (∀ entries, g.Complete entries ↔ format = utf8 "console" ∨
      ∀ l message, g.enabled l = true → entries.countP (LogEntry.isOf l message) ≤ 100) ∧
    (g.enabled .info = true → ∀ {σ : Type} (H : Host σ) (s : HostState σ) (requests : List (Bytes × Request)),
      (accessLines g (H.serveAll s requests) = accessLog (H.serveAll s requests) ↔
        format = utf8 "console" ∨ requests.length ≤ 100) ∧
      (format ≠ utf8 "console" →
        accessLines g (H.serveAll s requests) = Logger.thinned 0 (accessLog (H.serveAll s requests)))) := by
  obtain ⟨console, effective⟩ := Logger.new_eq_ok made
  refine ⟨effective, ?_, ?_⟩
  · intro entries
    rw [← console]
    exact Logger.complete_iff
  · intro enabled σ H s requests
    rw [← console, ne_eq, ← console, accessLines_eq enabled]
    cases g.format with
    | json =>
      refine ⟨?_, fun _ => rfl⟩
      rw [Logger.thinned_eq_self_iff, length_accessLog]
      exact ⟨.inr, fun few => few.resolve_left nofun⟩
    | console => exact ⟨⟨fun _ => .inl rfl, fun _ => rfl⟩, fun other => absurd rfl other⟩

/-- A quarter of a thousand requests, whatever they ask for: of those behind the first hundred one is in the log. -/
theorem log_complete_iff_quarter_thousand :
    let g : Logger := ⟨.json, .debug⟩
    let r : Request := ⟨utf8 "GET", utf8 "/nowhere", [], []⟩
    let H : Host Unit := ⟨.ofAllocator Allocator.heap, [], .default⟩
    Logger.new (utf8 "ERROR") [] true = .ok g ∧
      (accessLines g (H.serveAll ⟨(), .new⟩ (List.replicate 250 ([], r)))).length = 101 := by
  intro g r H
  have made : Logger.new (utf8 "ERROR") [] true = .ok g := by decide
  obtain ⟨_, _, lines⟩ := log_complete_iff_unrepeated made
  refine ⟨made, ?_⟩
  rw [(lines rfl H ⟨(), .new⟩ _).2 (by decide), Logger.length_thinned_zero, length_accessLog, List.length_replicate]
  rfl

/-- With the standard words for level and format, the hundred and first request of a second leaves no line. -/
theorem request_without_line :
    let g : Logger := ⟨.json, .info⟩
    let r : Request := ⟨utf8 "GET", utf8 "/api/v1/health", [], []⟩
    let H : Host Unit := ⟨.ofAllocator Allocator.heap, [], .default⟩
    let exchanges := H.serveAll ⟨(), .new⟩ (List.replicate 101 ([], r))
    Logger.new (utf8 "info") (utf8 "json") false = .ok g ∧ ¬ g.Complete (exchanges.flatMap Exchange.logs) ∧
      (accessLog exchanges).length = 101 ∧ (accessLines g exchanges).length = 100 := by
  intro g r H exchanges
  have logged : (accessLog exchanges).length = 101 := by
    rw [length_accessLog, List.length_replicate]
  refine ⟨by decide, ?_, logged, ?_⟩
  · intro complete
    have few := (Logger.complete_iff.mp complete).resolve_left nofun .info (utf8 "request") rfl
    rw [List.countP_eq_length_filter] at few
    have bound : (accessLog exchanges).length ≤ 100 := few
    omega
  · rw [accessLines_eq rfl, Logger.length_thinned_zero, logged]
    rfl

end BoundedRecords.Api
