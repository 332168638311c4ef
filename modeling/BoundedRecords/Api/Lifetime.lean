import BoundedRecords.Api.Host
import BoundedRecords.Config.Basic

/-! The lifetime of a host: how it starts to listen, and how it ends. -/
namespace BoundedRecords.Api

/-- How a host comes to its end. -/
inductive Ending where
  /-- It was told to stop. -/
  | stopped
  /-- What it listens on was closed. -/
  | closed
  /-- No further caller could be taken. -/
  | failed (why : Bytes)
deriving DecidableEq, Repr

namespace Ending

def error? : Ending → Option Bytes
  | .failed why => some (utf8 "server failed: " ++ why)
  | _ => none

def logs : Ending → List LogEntry
  | .stopped => [⟨.info, utf8 "shutting down server", []⟩]
  | _ => []

end Ending

inductive ListenError where
  | invalidPort (port : Int64)
  | inUse (address : Bytes)
deriving DecidableEq, Repr

def ListenError.message : ListenError → Bytes
  | .invalidPort port => utf8 "listen tcp: address " ++ Decimal.ofInt64 port ++ utf8 ": invalid port"
  | .inUse address => utf8 "listen tcp " ++ address ++ utf8 ": bind: address already in use"

/-- Listens on a port of a host. The system tells whether an address is free, and under which address
a caller finds the host then. -/
def listen (bound? : Bytes → Option Bytes) (host : Bytes) (port : Int64) : Except ListenError Bytes :=
  if port < 0 || 65535 < port then .error (.invalidPort port)
  else
    let address := listenAddress host port
    match bound? address with
    | none => .error (.inUse address)
    | some bound => .ok bound

/-- What reaches a caller: no body in answer to a request for the head alone. -/
def overNetwork (r : Request) (a : Answer) : Answer := if r.method == utf8 "HEAD" then { a with body := [] } else a

/-- A host that runs, or why it does not. -/
structure Startup (σ : Type) where
  host : Host σ
  state : HostState σ
  logs : List LogEntry
  error : Option Bytes

/-- Starts a host. From then on it tells callers the address it was bound to. -/
def Host.start {σ : Type} (H : Host σ) (bound? : Bytes → Option Bytes) (host : Bytes) (port : Int64)
    (storage : σ) : Startup σ :=
  match listen bound? host port with
  | .error e =>
    ⟨H, .new storage, [],
      some (utf8 "failed to listen on " ++ listenAddress host port ++ utf8 ": " ++ e.message)⟩
  | .ok bound =>
    let entry : LogEntry := ⟨.info, utf8 "starting recfactory REST API server",
      [("addr", .text bound), ("metrics", .text (utf8 "/metrics")), ("auth", .flag !H.apiKey.isEmpty)]⟩
    ⟨{ H with info := { H.info with host := bound } }, H.report storage .new, [entry], none⟩

end BoundedRecords.Api
