import BoundedRecords.Api.CrossOrigin
import BoundedRecords.Api.Endpoint

/-! Serving requests: routes, the key that guards some of them, and what every answer carries. -/
namespace BoundedRecords.Api

/-- The methods that routes can be defined for. -/
def knownMethods : List Bytes :=
  ["CONNECT", "DELETE", "GET", "HEAD", "OPTIONS", "PATCH", "POST", "PUT", "TRACE"].map utf8

/-- Whether a path belongs to the guarded part of the interface. -/
def isApiPath (path : Bytes) : Bool :=
  path == utf8 "/api/v1" || (utf8 "/api/v1/").isPrefixOf path

namespace Host

variable {σ : Type}

/-- The guarded part of the interface, behind the guard. -/
def dispatch (H : Host σ) (id : Bytes) (r : Request) (s : HostState σ) : Handled σ :=
  match Endpoint.at? r.routePath with
  | none => answered notFound s
  | some e =>
    if r.method == utf8 e.method then e.serve H id r.body s
    else answered (methodNotAllowed [e.method]) s

/-- Lets a request pass only if it brings the key. -/
def checked (H : Host σ) (key : Bytes) (inner : HostState σ → Handled σ) (s : HostState σ) : Handled σ :=
  if key.isEmpty then answered (failure 401 (utf8 "Missing X-API-Key header")) s
  else if key == H.apiKey then inner s
  else answered (failure 401 (utf8 "Invalid API key")) s

/-- Checks and counts the keys of requests, if the host has one. -/
def guarded (H : Host σ) (r : Request) (inner : HostState σ → Handled σ) (s : HostState σ) : Handled σ :=
  if H.apiKey.isEmpty then inner s
  else
    let key := r.header "X-Api-Key"
    Metrics.instrumentAuth (!key.isEmpty) (H.checked key inner) s

/-- The counters as text. -/
def scrape (s : HostState σ) : Handled σ :=
  answered ⟨200, [("Content-Type", utf8 "text/plain; version=0.0.4; charset=utf-8")], s.metrics.text⟩ s

/-- The pages that describe the interface. -/
def describe (H : Host σ) (path : Bytes) (s : HostState σ) : Handled σ :=
  if path == utf8 "/swagger/" || path == utf8 "/swagger/index.html" then
    answered ⟨200, [("Content-Type", utf8 "text/html")], indexPage⟩ s
  else if path == utf8 "/swagger/swagger.json" then
    match H.info.document with
    | .ok text => answered ⟨200, [("Content-Type", utf8 "application/json")], text⟩ s
    | .error e =>
      ⟨.ok (plainText 500 "Failed to generate Swagger documentation"), s,
        [⟨.error, utf8 "failed to render swagger doc", [("error", .text e)]⟩]⟩
  else answered notFound s

/-- Finds what a request is for. A method that no route can have is refused before its path counts. -/
def route (H : Host σ) (id : Bytes) (r : Request) (s : HostState σ) : Handled σ :=
  let path := r.routePath
  if !knownMethods.contains r.method then answered (methodNotAllowed []) s
  else if path == utf8 "/metrics" then scrape s
  else if isApiPath path then H.guarded r (H.dispatch id r) s
  else if (utf8 "/swagger/").isPrefixOf path then
    if r.method == utf8 "GET" then H.describe r.path s else answered (methodNotAllowed ["GET"]) s
  else answered notFound s

/-- The answer to a request that broke off. One that was to change the protocol is left without a
status of its own. -/
def brokenOff (r : Request) : Answer := ⟨if r.header "Connection" == utf8 "Upgrade" then 200 else 500, [], []⟩

/-- The answer to a request and its log, before the marks that every answer carries. -/
def respond (H : Host σ) (id : Bytes) (r : Request) (s : HostState σ) : Answer × HostState σ × List LogEntry :=
  if CrossOrigin.isPreflight r then (⟨200, CrossOrigin.preflightHeaders r, []⟩, s, [])
  else
    let h := H.route id r s
    let a := match h.result with
      | .ok a => a
      | .error _ => brokenOff r
    ({ a with headers := CrossOrigin.requestHeaders r ++ a.headers }, h.state, h.logs)

end Host

/-- One request served: its answer, its log entries in order, and the state it leaves. -/
structure Exchange (σ : Type) where
  answer : Answer
  logs : List LogEntry
  state : HostState σ

/-- The name of a request: what the caller sent, or a fresh one. -/
def requestId (fresh : Bytes) (r : Request) : Bytes :=
  let sent := r.header "X-Request-Id"
  if sent.isEmpty then fresh else sent

/-- The entry that every request leaves in the log. -/
def accessEntry (id : Bytes) (r : Request) (a : Answer) : LogEntry :=
  ⟨.info, utf8 "request",
    [("request_id", .text id), ("method", .text r.method), ("path", .text r.path),
      ("status", .number a.status), ("bytes", .number a.body.length)]⟩

namespace Host

variable {σ : Type}

/-- Serves one request; `fresh` names it if the caller did not. -/
def serve (H : Host σ) (fresh : Bytes) (r : Request) (s : HostState σ) : Exchange σ :=
  let id := requestId fresh r
  let (a, s, logs) := H.respond id r s
  ⟨{ a with headers := ("X-Request-Id", id) :: a.headers }, logs ++ [accessEntry id r a], s⟩

/-- Serves requests one after another, each with the fresh name for it. -/
def serveAll (H : Host σ) : HostState σ → List (Bytes × Request) → List (Exchange σ)
  | _, [] => []
  | s, (fresh, r) :: rest =>
    let x := H.serve fresh r s
    x :: serveAll H x.state rest

end Host
end BoundedRecords.Api
