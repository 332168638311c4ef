import BoundedRecords.Number.Binary64
import BoundedRecords.Storage.Failure

/-! Counters and gauges of the host. A counted series exists from its first use on, also if nothing was
added to it. Labels are kept in the order of their names. -/
namespace BoundedRecords.Api

/-- Numbers by label values, in the order of first use. -/
abbrev Tally (α : Type) := List (List Bytes × α)

namespace Tally

variable {α : Type}

def get? (t : Tally α) (labels : List Bytes) : Option α := t.lookup labels

/-- Changes the number of a series, which starts from `zero`. -/
def update (zero : α) (f : α → α) (labels : List Bytes) : Tally α → Tally α
  | [] => [(labels, f zero)]
  | (l, n) :: rest => if l = labels then (l, f n) :: rest else (l, n) :: update zero f labels rest

end Tally

structure Metrics where
  /-- Answers by endpoint, method and status. -/
  requests : Tally Nat
  /-- Timed requests by endpoint and method. -/
  durations : Tally Nat
  /-- Requests being served by endpoint and method. -/
  inFlight : Tally Int
  /-- Records made, and refused requests, by outcome. -/
  created : Tally Nat
  /-- Requests with a key by outcome. -/
  auth : Tally Nat
  health : Tally Nat
  inUse : Int64
  limit : Int64
deriving Repr

namespace Metrics

def new : Metrics := ⟨[], [], [], [], [], [], 0, 0⟩

def outcome (success : Bool) : List Bytes := [utf8 (if success then "success" else "error")]

def count (n : Nat) (labels : List Bytes) (t : Tally Nat) : Tally Nat := t.update 0 (· + n) labels

/-- Counts one answered request. -/
def recordRequest (method endpoint : Bytes) (status : Int) (m : Metrics) : Metrics :=
  { m with
    requests := count 1 [endpoint, method, Decimal.ofInt status] m.requests
    durations := count 1 [endpoint, method] m.durations }

/-- Counts `n` records made or refused. -/
def countCreated (success : Bool) (n : Nat) (m : Metrics) : Metrics :=
  { m with created := count n (outcome success) m.created }

/-- Counts a signed number of records. Amounts are kept to 53 bits; a negative one is a fault, after
which the series exists. -/
def recordCreate (success : Bool) (n : Int) (m : Metrics) : Metrics × Option Fault :=
  match n with
  | .ofNat n => (m.countCreated success (Binary64.roundNat n), none)
  | .negSucc _ => (m.countCreated success 0, some .decreasingCounter)

def recordUsage (inUse limit : Int64) (m : Metrics) : Metrics := { m with inUse := inUse, limit := limit }

def recordAuth (success : Bool) (m : Metrics) : Metrics :=
  { m with auth := count 1 (outcome success) m.auth }

def recordHealth (success : Bool) (m : Metrics) : Metrics :=
  { m with health := count 1 (outcome success) m.health }

def enter (method endpoint : Bytes) (m : Metrics) : Metrics :=
  { m with inFlight := m.inFlight.update 0 (· + 1) [endpoint, method] }

def leave (method endpoint : Bytes) (m : Metrics) : Metrics :=
  { m with inFlight := m.inFlight.update 0 (· - 1) [endpoint, method] }

/-- The status that is kept of what a handler announced: none if it announced nothing, which zero stands
for, or something informational only. -/
def seenStatus (announced : Nat) : Option Nat :=
  if announced == 0 || (100 ≤ announced && announced ≤ 199 && announced != 101) then none else some announced

/-! The text form. -/

def escapeLabel (s : Bytes) : Bytes :=
  s.flatMap fun b =>
    if b == 0x5C then utf8 "\\\\" else if b == 0x22 then utf8 "\\\"" else if b == 0x0A then utf8 "\\n" else [b]

structure Family where
  name : String
  help : String
  kind : String
  /-- What the lines of its samples add to the name. -/
  suffix : String
  labels : List String
  /-- Label values and number of each sample. -/
  samples : List (List Bytes × Bytes)

def counterText (n : Nat) : Bytes := Binary64.showNat (n % Numeral.wordCount)

def counters (t : Tally Nat) : List (List Bytes × Bytes) := t.map fun (l, n) => (l, counterText n)

/-- All families in the order of their names. -/
def families (m : Metrics) : List Family := [
  ⟨"recfactory_allocator_in_use_bytes", "Bytes currently held by live records", "gauge", "", [],
    [([], Binary64.showInt m.inUse.toInt)]⟩,
  ⟨"recfactory_allocator_limit_bytes", "Allocator byte budget, 0 when unlimited", "gauge", "", [],
    [([], Binary64.showInt m.limit.toInt)]⟩,
  ⟨"recfactory_auth_requests_total", "Total number of authentication requests", "counter", "",
    ["status"], counters m.auth⟩,
  ⟨"recfactory_health_checks_total", "Total number of health checks", "counter", "",
    ["status"], counters m.health⟩,
  ⟨"recfactory_http_request_duration_seconds", "HTTP request duration in seconds", "histogram", "_count",
    ["endpoint", "method"], counters m.durations⟩,
  ⟨"recfactory_http_requests_in_flight", "Number of HTTP requests currently being processed", "gauge", "",
    ["endpoint", "method"], m.inFlight.map fun (l, n) => (l, Binary64.showInt n)⟩,
  ⟨"recfactory_http_requests_total", "Total number of HTTP requests", "counter", "",
    ["endpoint", "method", "status_code"], counters m.requests⟩,
  ⟨"recfactory_records_created_total", "Total number of record creation attempts", "counter", "",
    ["status"], counters m.created⟩]

/-- Label values in the order of their bytes. -/
def labelsLe : List Bytes → List Bytes → Bool
  | [], _ => true
  | _ :: _, [] => false
  | a :: s, b :: t => if a == b then labelsLe s t else Bytes.le a b

def labelText (names : List String) (values : List Bytes) : Bytes :=
  if names.isEmpty then []
  else
    let pairs := (names.zip values).map fun (n, v) => utf8 n ++ utf8 "=\"" ++ escapeLabel v ++ utf8 "\""
    utf8 "\x7b" ++ Bytes.join (utf8 ",") pairs ++ utf8 "\x7d"

/-- The lines of the samples of a family. -/
def Family.sampleLines (f : Family) : List Bytes :=
  (f.samples.mergeSort fun a b => labelsLe a.1 b.1).map fun (values, number) =>
    utf8 f.name ++ utf8 f.suffix ++ labelText f.labels values ++ 0x20 :: number

def Family.lines (f : Family) : List Bytes :=
  if f.samples.isEmpty then []
  else
    (utf8 "# HELP " ++ utf8 f.name ++ 0x20 :: utf8 f.help) ::
      (utf8 "# TYPE " ++ utf8 f.name ++ 0x20 :: utf8 f.kind) :: f.sampleLines

def sampleLines (m : Metrics) : List Bytes := m.families.flatMap Family.sampleLines

/-- The text that is scraped. -/
def text (m : Metrics) : Bytes := (m.families.flatMap Family.lines).flatMap (· ++ [0x0A])

end Metrics
end BoundedRecords.Api
