import BoundedRecords.Api.Lifetime
import BoundedRecords.Command.Run

/-! Where a host is found. The address that is announced and the address that is listened on are written by two rules.
They agree on every host without a colon. A host with one is listened on in brackets, and announced without. -/
namespace BoundedRecords

theorem Config.address_eq_iff (c : Config) : c.address = listenAddress c.bind c.port ↔ 0x3A ∉ c.bind := by
  unfold address listenAddress
  constructor
  · intro same colon
    -- The brackets make the second address longer.
    rw [if_pos (List.contains_iff_mem.mpr colon)] at same
    have lengths := congrArg List.length same
    have brackets : (utf8 "]:").length = 2 := rfl
    simp only [List.length_append, List.length_cons, brackets] at lengths
    omega
  · intro free
    rw [if_neg fun colon => free (List.contains_iff_mem.mp colon)]

theorem Config.port_inRange {c : Config} (valid : c.validate = .ok ()) : (c.port < 0 || 65535 < c.port) = false := by
  unfold validate at valid
  split at valid
  · cases valid
  · rename_i inRange
    exact Bool.eq_false_iff.mpr inRange

namespace Api.Host

variable {σ : Type} (H : Host σ)

/-- The address that a host listens on when it is started: it runs exactly if the system gives it that address. -/
def ListensOn (storage : σ) (host : Bytes) (port : Int64) (address : Bytes) : Prop :=
  ∀ bound?, (H.start bound? host port storage).error = none ↔ (bound? address).isSome = true

theorem start_error_iff {port : Int64} (inRange : (port < 0 || 65535 < port) = false) (bound? : Bytes → Option Bytes)
    (host : Bytes) (storage : σ) :
    (H.start bound? host port storage).error = none ↔ (bound? (listenAddress host port)).isSome = true := by
  simp only [start, listen, inRange, Bool.false_eq_true, if_false]
  cases bound? (listenAddress host port) with
  | none => simp
  | some bound => simp

/-- With a port that there is, one address is listened on and no other. -/
theorem listensOn_iff {port : Int64} (inRange : (port < 0 || 65535 < port) = false) (storage : σ) (host address : Bytes) :
    H.ListensOn storage host port address ↔ address = listenAddress host port := by
  constructor
  · intro listens
    -- A system that gives this address alone.
    have runs := listens fun a => if a = address then some a else none
    rw [H.start_error_iff inRange, if_pos rfl] at runs
    have given := runs.mpr rfl
    split at given
    · rename_i same
      exact same.symm
    · cases given
  · rintro rfl bound?
    exact H.start_error_iff inRange bound? host storage

end Api.Host

namespace Command

variable {σ : Type} {S : Surroundings σ} {fs : Files} {line : List Bytes} {service : Service σ}

/-- What a command says when it begins to serve. -/
def announcement (address : Bytes) : Bytes := utf8 "Starting recfactory REST API server on " ++ address ++ [0x0A]

def noticesOf (writes : Writes) : List Bytes := (writes.filter fun w => w.1 = .notice).map Prod.snd

namespace Session

variable (s : Session σ)

theorem create_served (json : Bool) (name ageText : Bytes) : (s.create S json name ageText).served = none := by
  unfold create
  split
  · rfl
  · split <;> rfl

theorem batch_served (json : Bool) (path : Bytes) : (s.batch S fs json path).served = none := by
  unfold batch
  split
  · rfl
  · split <;> rfl

/-- A session serves a configuration only if it is valid, and then it announces the address of it. -/
theorem serve_served {a : Arguments} (served : (s.serve S a).served = some service) :
    service.config.validate = .ok () ∧ (s.serve S a).writes = S.put .notice (announcement service.config.address) := by
  simp only [serve] at served ⊢
  split at served
  · cases served
  · rename_i valid
    cases served
    rw [valid]
    exact ⟨rfl, rfl⟩

theorem run_served {t : Topic} {a : Arguments} (served : (s.run S fs t a).served = some service) :
    service.config.validate = .ok () ∧
      (s.run S fs t a).writes = S.put .notice (announcement service.config.address) := by
  unfold run at served ⊢
  split at served
  · rw [create_served] at served
    cases served
  · rw [batch_served] at served
    cases served
  · cases served
  · exact s.serve_served served
  · cases served
  · cases served

end Session

theorem runTopic_served {t : Topic} (served : (runTopic S fs t line).served = some service) :
    service.config.validate = .ok () ∧
      (runTopic S fs t line).writes = S.put .notice (announcement service.config.address) := by
  simp only [runTopic] at served ⊢
  split at served
  · cases served
  split at served
  · cases served
  rename_i awake
  split at served
  · cases served
  split at served
  · cases served
  rename_i other
  split at served
  · cases served
  · rename_i s _
    rw [if_neg awake, if_neg other]
    exact s.run_served served

theorem run_located_notices (fs : Files) {rest : List Bytes} {t : Topic} (located : Topic.locate line = .ok (t, rest)) :
    (run S fs line).served = (runTopic S fs t rest).served ∧
      noticesOf (run S fs line).writes = noticesOf (runTopic S fs t rest).writes := by
  simp only [run, located]
  split
  · exact ⟨rfl, rfl⟩
  · refine ⟨rfl, ?_⟩
    have silent : noticesOf (errorLine ‹_›) = [] := rfl
    simp only [noticesOf, List.filter_append, List.map_append] at silent ⊢
    rw [silent, List.append_nil]

/-- A run serves only a valid configuration, and the one notice that it gives then is of the address in it. -/
theorem run_served (served : (run S fs line).served = some service) (arrives : S.outputFault = none) :
    service.config.validate = .ok () ∧ noticesOf (run S fs line).writes = [announcement service.config.address] := by
  cases located : Topic.locate line with
  | error word =>
    simp only [run, located] at served
    cases served
  | ok found =>
    obtain ⟨t, rest⟩ := found
    obtain ⟨same, notices⟩ := run_located_notices (S := S) fs located
    rw [same] at served
    obtain ⟨valid, writes⟩ := runTopic_served served
    rw [notices, writes, Surroundings.put, arrives]
    exact ⟨valid, rfl⟩

/-- The address that is announced is the address that is listened on exactly if its host has no colon. For every valid
configuration a host that is started with it listens on one address, and a run that serves it gives one notice, with
the address as it is announced. -/
theorem announced_address_listened_iff (c : Config) (valid : c.validate = .ok ()) :
    (c.address = listenAddress c.bind c.port ↔ 0x3A ∉ c.bind) ∧
    (∀ {σ : Type} (H : Api.Host σ) (storage : σ),
      (∀ address, H.ListensOn storage c.bind c.port address ↔ address = listenAddress c.bind c.port) ∧
      (H.ListensOn storage c.bind c.port c.address ↔ 0x3A ∉ c.bind)) ∧
    (∀ {σ : Type} (S : Surroundings σ) (fs : Files) (line : List Bytes) (service : Service σ),
      (run S fs line).served = some service → service.config = c → S.outputFault = none →
      noticesOf (run S fs line).writes = [announcement c.address]) := by
  have inRange := Config.port_inRange valid
  refine ⟨c.address_eq_iff, ?_, ?_⟩
  · intro σ H storage
    refine ⟨H.listensOn_iff inRange storage c.bind, ?_⟩
    rw [H.listensOn_iff inRange, c.address_eq_iff]
  · rintro σ S fs line service served rfl arrives
    exact (run_served served arrives).2

/-- Nothing is there but a root, and records are made without a budget. -/
def bare : Files := ⟨fun l => if l = [] then some (.directory 0o755) else none, []⟩

def unlimited : Surroundings Unit where
  home := []
  provide := some fun _ => (.ofAllocator Allocator.heap, ())
  key := []
  outputFault := none
  serve := fun _ => none

/-- A host with a name and the last port that there is. -/
theorem announced_address_listened_by_name :
    let c : Config := { Config.default with bind := utf8 "localhost", port := 65535 }
    let r := run unlimited bare (["serve", "--bind", "localhost", "-p", "65535"].map utf8)
    let H : Api.Host Unit := ⟨.ofAllocator Allocator.heap, [], .default⟩
    noticesOf r.writes = [announcement (utf8 "localhost:65535")] ∧
      H.ListensOn () c.bind c.port (utf8 "localhost:65535") := by
  intro c r H
  have valid : c.validate = .ok () := rfl
  have named : c.address = utf8 "localhost:65535" := by decide
  have found : r.served.map Service.config = some c := by decide +kernel
  obtain ⟨service, served, config⟩ := Option.map_eq_some_iff.mp found
  obtain ⟨_, listens, announces⟩ := announced_address_listened_iff c valid
  rw [← named]
  exact ⟨announces unlimited bare _ service served config rfl, (listens H ()).2.mpr (by decide)⟩

/-- A numeric host with colons is not announced as it is listened on. -/
theorem bracketed_host_announced_bare :
    let c : Config := { Config.default with bind := utf8 "::1" }
    let r := run unlimited bare (["serve", "--bind", "::1"].map utf8)
    let H : Api.Host Unit := ⟨.ofAllocator Allocator.heap, [], .default⟩
    c.validate = .ok () ∧ r.served.map Service.config = some c ∧
      noticesOf r.writes = [announcement (utf8 "::1:8080")] ∧
      H.ListensOn () c.bind c.port (utf8 "[::1]:8080") ∧ ¬ H.ListensOn () c.bind c.port (utf8 "::1:8080") := by
  intro c r H
  have valid : c.validate = .ok () := rfl
  have found : r.served.map Service.config = some c := by decide +kernel
  have inRange := Config.port_inRange valid
  refine ⟨valid, found, by decide +kernel, ?_, ?_⟩
  · exact (H.listensOn_iff inRange () c.bind _).mpr (by decide)
  · intro listens
    have same := (H.listensOn_iff inRange () c.bind _).mp listens
    exact absurd same (by decide)

end Command
end BoundedRecords
