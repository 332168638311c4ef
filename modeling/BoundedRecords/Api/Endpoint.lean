import BoundedRecords.Api.Answers
import BoundedRecords.Api.Description
import BoundedRecords.Api.Metrics
import BoundedRecords.Log.Logger

/-! The endpoints of the interface. A record that is made for a request is released with its answer. -/
namespace BoundedRecords.Api

/-- A host of records: how it makes them, the key that guards it unless empty, and what it says
about itself. -/
structure Host (σ : Type) where
  maker : Maker σ
  apiKey : Bytes
  info : ApiInfo

/-- What lasts from one request to the next. -/
structure HostState (σ : Type) where
  storage : σ
  metrics : Metrics

def HostState.new {σ : Type} (storage : σ) : HostState σ := ⟨storage, .new⟩

/-- How a request was dealt with: its answer unless it broke off, and what it logged. -/
structure Handled (σ : Type) where
  result : Except Fault Answer
  state : HostState σ
  logs : List LogEntry

/-- An answer that changes nothing. -/
def answered {σ : Type} (a : Answer) (s : HostState σ) : Handled σ := ⟨.ok a, s, []⟩

namespace Metrics

variable {σ : Type}

/-- Counts a request around its handler, by the status of its answer, where none means success. A request
that breaks off is only seen in flight. -/
def instrument (method endpoint : Bytes) (handler : HostState σ → Handled σ) (s : HostState σ) : Handled σ :=
  let h := handler { s with metrics := s.metrics.enter method endpoint }
  let counted :=
    match h.result with
    | .ok a => h.state.metrics.recordRequest method endpoint ((seenStatus a.status).getD 200)
    | .error _ => h.state.metrics
  { h with state := { h.state with metrics := counted.leave method endpoint } }

/-- Counts a request that brings a key, by whether its handler denied it. -/
def instrumentAuth (hasKey : Bool) (handler : HostState σ → Handled σ) (s : HostState σ) : Handled σ :=
  let h := handler s
  match h.result with
  | .ok a =>
    if hasKey then
      { h with state := { h.state with metrics := h.state.metrics.recordAuth (seenStatus a.status != some 401) } }
    else h
  | .error _ => h

end Metrics

namespace Host

variable {σ : Type}

/-- Shows the usage of the storage on the gauges, if it is reported. -/
def report (H : Host σ) (storage : σ) (m : Metrics) : HostState σ :=
  ⟨storage, match H.maker.usage storage with
    | some u => m.recordUsage u.inUse u.limit
    | none => m⟩

/-- What is logged when records could not be made for the request `id`. -/
def refusalEntry (id : Bytes) (e : BoundedRecords.Failure) : LogEntry :=
  if e.stemsFrom .allocation then
    ⟨.warn, utf8 "record allocation failed", [("request_id", .text id), ("error", .text e.message)]⟩
  else ⟨.error, utf8 "record creation failed", [("error", .text e.message)]⟩

/-- Ends a request for records. What was made is shown by `view`, and its records are released. The numbers
that are counted here are not negative, so that counting does not break off. -/
def conclude {α : Type} (H : Host σ) (id : Bytes) (people : α → List Person) (view : α → Json)
    (m : Metrics) : Outcome σ α → Handled σ
  | .done made st =>
    ⟨.ok (success (view made)),
      H.report (H.maker.releaseAll (people made) st) (m.recordCreate true (people made).length).1, []⟩
  | .refused e st => ⟨.ok (refusal e), H.report st (m.recordCreate false 1).1, [refusalEntry id e]⟩
  | .broken f st => ⟨.error f, H.report st m, []⟩

def health (s : HostState σ) : Handled σ :=
  ⟨.ok (success healthView), { s with metrics := s.metrics.recordHealth true }, []⟩

def layout (H : Host σ) (s : HostState σ) : Handled σ := answered (success (layoutView H.maker s.storage)) s

/-- Makes one record. -/
def createOne (H : Host σ) (id body : Bytes) (s : HostState σ) : Handled σ :=
  match readOne body with
  | .error e => answered (failure 400 e.message) s
  | .ok input =>
    H.conclude id (fun p => [p]) personView s.metrics (H.maker.create input.name input.age s.storage)

/-- Makes all records of a batch or none. -/
def createMany (H : Host σ) (id body : Bytes) (s : HostState σ) : Handled σ :=
  match readMany body with
  | .error e => answered (failure 400 e.message) s
  | .ok inputs =>
    H.conclude id (fun people => people) batchView s.metrics (H.maker.createAll inputs s.storage)

end Host

/-- The endpoints that are counted. -/
inductive Endpoint where
  | health
  | layout
  | record
  | batch
deriving DecidableEq, Repr

namespace Endpoint

def all : List Endpoint := [.health, .layout, .record, .batch]

def path : Endpoint → String
  | .health => "/api/v1/health"
  | .layout => "/api/v1/layout"
  | .record => "/api/v1/records"
  | .batch => "/api/v1/records/batch"

def method : Endpoint → String
  | .health | .layout => "GET"
  | .record | .batch => "POST"

def at? (path : Bytes) : Option Endpoint := all.find? fun e => path == utf8 e.path

/-- What stands behind the endpoint. -/
def handle {σ : Type} (H : Host σ) (e : Endpoint) (id body : Bytes) (s : HostState σ) : Handled σ :=
  match e with
  | .health => Host.health s
  | .layout => H.layout s
  | .record => H.createOne id body s
  | .batch => H.createMany id body s

/-- What stands behind the endpoint, with its requests counted. -/
def serve {σ : Type} (H : Host σ) (e : Endpoint) (id body : Bytes) (s : HostState σ) : Handled σ :=
  Metrics.instrument (utf8 e.method) (utf8 e.path) (e.handle H id body) s

end Endpoint
end BoundedRecords.Api
