import BoundedRecords.Api.Lifetime
import BoundedRecords.Command.Run
import BoundedRecords.Storage.Budget
import Std.Http

/-! The program on a system. The files that a command line may mean are read before the command runs,
and those that it changed are written afterwards; requests are taken from the network one at a time. -/
namespace BoundedRecords.Program

open Command

def bytesOf (data : ByteArray) : Bytes := data.toList

def dataOf (s : Bytes) : ByteArray := ⟨s.toArray⟩

/-! Files. -/

/-- The paths that a command line may mean: any argument, or the end of one. -/
def possiblePaths (defaultPath : Bytes) (line : List Bytes) : List Bytes :=
  defaultPath :: line.flatMap fun s => [s, s.drop 2] ++ (Bytes.cut 0x3D s).2.toList

/-- A location and all that lead to it, outermost first. -/
def ancestors (l : Location) : List Location := (List.range (l.length + 1)).map fun n => l.take n

def locations (working : Location) (paths : List Bytes) : List Location :=
  let fs : Files := ⟨fun _ => none, working⟩
  (paths.flatMap fun p => ancestors (Path.components (fs.absolute p))).eraseDups

def pathName (l : Location) : String := Bytes.toString (Path.slash :: Bytes.join [Path.slash] l)

/-- What stands at a location. -/
def look (l : Location) : IO (Option FileEntry) := do
  let path := (← IO.currentDir) / pathName l
  try
    match (← path.metadata).type with
    | .dir => return some (.directory 0o755)
    | _ => return some (.file 0o644 (bytesOf (← IO.FS.readBinFile path)))
  catch _ => return none

def lookAll (working : Location) (ls : List Location) : IO Files := do
  let mut fs : Files := ⟨fun _ => none, working⟩
  for l in ls do
    if let some e ← look l then fs := fs.put l e
  return fs

def ownerOnly : IO.FileRight := { user := { read := true, write := true } }

/-- Makes a change to a location real. A new file is for its owner alone. -/
def change (l : Location) (before after : Option FileEntry) : IO Unit := do
  let path := pathName l
  match before, after with
  | none, some (.directory _) => IO.FS.createDir path
  | none, some (.file _ content) =>
    IO.FS.writeBinFile path (dataOf content)
    IO.setAccessRights path ownerOnly
  | some (.file _ old), some (.file _ content) => if old != content then IO.FS.writeBinFile path (dataOf content)
  | _, _ => return

/-! Output. -/

def writeOut (channel : Channel) (text : Bytes) : IO Unit := do
  let stream ← if channel == .output then IO.getStdout else IO.getStderr
  stream.write (dataOf text)
  stream.flush

def writeLogs (logger : Logger) (entries : List LogEntry) : IO Unit :=
  for e in logger.written entries do
    writeOut .problem (e.line logger.format)

/-! Serving. -/

open Std.Http in
/-- A request as it came from the network. -/
def receive (request : Request Body.Stream) : Std.Async.ContextAsync Api.Request := do
  let body : ByteArray ← request.body.readAll
  return {
    method := utf8 (toString request.line.method)
    target := utf8 (toString request.line.uri)
    headers := request.line.headers.toList.map fun (n, v) => (utf8 n.value, utf8 v.value)
    body := bytesOf body }

open Std.Http in
/-- An answer as it goes to the network. -/
def send (a : Api.Answer) : Std.Async.Async (Response Body.Any) := do
  let status := (Status.ofCode none a.status.toUInt16).getD .internalServerError
  let builder := a.headers.foldl
    (fun (b : Response.Builder) (n, v) => (b.header? n (Bytes.toString v)).getD b) (Response.withStatus status)
  return builder.body (Body.Any.ofBody (← Body.Full.ofByteArray (dataOf a.body)))

def freshId : IO Bytes := do return Hex.ofBytes (bytesOf (← IO.getRandomBytes 16))

/-- Serves one request and logs it. -/
def answer (H : Api.Host (Option Budget)) (logger : Logger) (state : IO.Ref (Api.HostState (Option Budget)))
    (r : Api.Request) : IO Api.Answer := do
  let fresh ← freshId
  let x ← state.modifyGet fun s =>
    let x := H.serve fresh r s
    (x, x.state)
  writeLogs logger x.logs
  return x.answer

/-- The address to listen on, if the host is written as a number. -/
def socketAddress? (host : Bytes) (port : Int64) : Option Std.Net.SocketAddress :=
  let text := host.toString
  let port := port.toInt.toNat.toUInt16
  match Std.Net.IPv4Addr.ofString text with
  | some a => some (.v4 ⟨a, port⟩)
  | none => (Std.Net.IPv6Addr.ofString text).map fun a => .v6 ⟨a, port⟩

/-- The address that callers use. -/
def shownAddress (host : Bytes) (bound : Option Std.Net.SocketAddress) : Bytes :=
  listenAddress host (Int64.ofNat ((bound.map fun a => a.port.toNat).getD 0))

open Std.Async in
/-- Waits until the process is told to stop. -/
def awaitStop : IO Unit := do
  let interrupt ← Signal.Waiter.mk .sigint false
  let terminate ← Signal.Waiter.mk .sigterm false
  let _ ← interrupt.wait
  let _ ← terminate.wait
  (Selectable.one #[.case interrupt.selector pure, .case terminate.selector pure]).block

/-- Serves until the process is told to stop; the result is why it could not. -/
def serve (service : Service (Option Budget)) (logger : Logger) : IO (Option Bytes) := do
  let c := service.config
  let H : Api.Host (Option Budget) := ⟨service.maker, c.apiKey, .default⟩
  let state ← IO.mkRef (Api.HostState.new service.storage)
  let host ← IO.mkRef H
  let handler := Std.Http.Server.Handler.ofFn fun request => do
    let r ← receive request
    send (← answer (← host.get) logger state r)
  let server? ←
    match socketAddress? c.bind c.port with
    | none => pure none
    | some address =>
      try
        let server ← (Std.Http.Server.serve address handler).block
        pure (some server)
      catch _ => pure none
  let started := H.start (fun _ => server?.map fun s => shownAddress c.bind s.localAddr) c.bind c.port service.storage
  host.set started.host
  state.set started.state
  writeLogs logger started.logs
  if let some server := server? then
    awaitStop
    writeLogs logger Api.Ending.stopped.logs
    server.shutdownAndWait.block
  return started.error

/-! The program. -/

def surroundings (home key : Bytes) : Surroundings (Option Budget) where
  home := home
  provide := some fun budget => (.ofAllocator Budget.optional, Budget.ofBytes budget)
  key := key
  outputFault := none
  serve := fun _ => none

/-- Runs a command line; the result is whether it came to something. -/
def run (line : List Bytes) : IO Bool := do
  let home := utf8 ((← IO.getEnv "HOME").getD "")
  let key := Hex.ofBytes (bytesOf (← IO.getRandomBytes Config.keyBytes.toUSize))
  let S := surroundings home key
  let working := Path.components (utf8 (← IO.currentDir).toString)
  let ls := locations working (possiblePaths S.defaultPath line)
  let before ← lookAll working ls
  let r := Command.run S before line
  for l in ls do
    change l (before.entry l) (r.files.entry l)
  if let some logger := r.logger then writeLogs logger r.logs
  for (channel, text) in r.writes do
    writeOut channel text
  match r.served, r.logger with
  | some service, some logger =>
    match ← serve service logger with
    | none => return true
    | some why =>
      for (channel, text) in errorLine (.serving why) do
        writeOut channel text
      return false
  | _, _ => return r.error.isNone

end BoundedRecords.Program

def main (line : List String) : IO UInt32 := do
  let done ← BoundedRecords.Program.run (line.map BoundedRecords.utf8)
  return if done then 0 else 1
