import BoundedRecords.Proofs.Command.Initialise

/-! Configurations that are not there. Something is taken to be there unless a place on its way is missing. So a path
that is blocked, by a file on its way or by its own length, passes for the path of a file. -/
namespace BoundedRecords

namespace Files

variable {fs : Files} {l : Location} {p : Bytes}

/-- Names that cannot be followed from a place, although no place on the way is missing: one is a file, or one of the
names is too long. -/
inductive Obstructed (fs : Files) : Location → List Bytes → Prop where
  | file {l : Location} {name : Bytes} {names : List Bytes} {mode : Nat} {content : Bytes} :
    fs.entry l = some (.file mode content) → Obstructed fs l (name :: names)
  | long {l : Location} {name : Bytes} {names : List Bytes} {mode : Nat} :
    fs.entry l = some (.directory mode) → maxName < name.length → Obstructed fs l (name :: names)
  | later {l : Location} {name : Bytes} {names : List Bytes} {mode : Nat} :
    fs.entry l = some (.directory mode) → Obstructed fs (next l name) names → Obstructed fs l (name :: names)

/-- A path that no system call takes, or that is obstructed. -/
def Blocked (fs : Files) (p : Bytes) : Prop :=
  p ≠ [] ∧ (0 ∈ p ∨ maxPath < p.length ∨ fs.Obstructed (if Path.isAbsolute p then [] else fs.working) (names p))

theorem walk_cons (fs : Files) (l : Location) (name : Bytes) (names : List Bytes) :
    fs.walk l (name :: names) =
      match fs.entry l with
      | none => .error .notFound
      | some (.file ..) => .error .notDirectory
      | some (.directory _) =>
        if maxName < name.length then .error .nameTooLong else fs.walk (next l name) names := by
  rw [walk, isDirectory]
  cases fs.entry l with
  | none => rfl
  | some e =>
    cases e with
    | file mode content => rfl
    | directory mode =>
      by_cases long : maxName < name.length
      · simp [long, bind, Except.bind, throw, throwThe, MonadExceptOf.throw]
      · simp [long, bind, Except.bind]

theorem obstructed_cons {name : Bytes} {names : List Bytes} :
    fs.Obstructed l (name :: names) ↔
      match fs.entry l with
      | none => False
      | some (.file ..) => True
      | some (.directory _) => maxName < name.length ∨ fs.Obstructed (next l name) names := by
  constructor
  · intro obstructed
    cases obstructed with
    | file there => simp [there]
    | long there above => simp [there, above]
    | later there rest => simp [there, rest]
  · intro stopped
    split at stopped
    · cases stopped
    · rename_i there
      exact .file there
    · rename_i there
      rcases stopped with long | rest
      · exact .long there long
      · exact .later there rest

/-- Being obstructed is failing on the way for another reason than a missing place. -/
theorem obstructed_iff {names : List Bytes} :
    fs.Obstructed l names ↔ ∃ fault, fs.walk l names = .error fault ∧ fault ≠ .notFound := by
  induction names generalizing l with
  | nil =>
    constructor
    · exact fun impossible => nomatch impossible
    · exact fun ⟨_, impossible, _⟩ => nomatch impossible
  | cons name names ih =>
    rw [obstructed_cons, walk_cons]
    split
    · simp
    · simp
    · split
      · rename_i long
        simp [long]
      · rename_i short
        simp [short, ih]

theorem blocked_iff_locate : fs.Blocked p ↔ ∃ fault, fs.locate p = .error fault ∧ fault ≠ .notFound := by
  unfold Blocked locate
  by_cases empty : p = []
  · simp [empty]
  by_cases null : 0 ∈ p
  · simp [empty, null]
  by_cases long : maxPath < p.length
  · simp [empty, null, long]
  · simp [empty, null, long, obstructed_iff]

theorem blocked_iff : fs.Blocked p ↔ ∃ e, fs.stat p = .error e ∧ e.fault ≠ .notFound := by
  rw [blocked_iff_locate, stat]
  cases located : fs.locate p with
  | error fault => simp [failed, bind, Except.bind]
  | ok l =>
    cases there : fs.entry l with
    | none => simp [failed, there, bind, Except.bind, throw, throwThe, MonadExceptOf.throw]
    | some e => simp [failed, there, bind, Except.bind, pure, Except.pure]

theorem mayExist_iff : fs.mayExist p = true ↔ (∃ e, fs.stat p = .ok e) ∨ fs.Blocked p := by
  rw [blocked_iff, mayExist]
  cases fs.stat p with
  | error e => simp
  | ok e => simp

/-- What is said of a path that is not blocked is right, and of one that is it is wrong. -/
theorem mayExist_right_iff : (fs.mayExist p = true ↔ ∃ e, fs.stat p = .ok e) ↔ ¬ fs.Blocked p := by
  rw [mayExist_iff, blocked_iff]
  cases fs.stat p with
  | error e => simp
  | ok e => simp

end Files

theorem Config.isAbsolute_defaultPath {home : Bytes} (rooted : Path.isAbsolute home = true) :
    Path.isAbsolute (defaultPath home) = true := by
  cases home with
  | nil => cases rooted
  | cons b home =>
    apply Path.isAbsolute_clean
    exact rooted

namespace Command

variable {σ : Type} {S : Surroundings σ} {fs : Files}

theorem mayExist_unblocked {p : Bytes} (missing : ∀ e, fs.stat p ≠ .ok e) (clear : ¬ fs.Blocked p) :
    fs.mayExist p = false := by
  rw [← Bool.not_eq_true, Files.mayExist_iff]
  rintro (⟨e, there⟩ | blocked)
  · exact missing e there
  · exact clear blocked

theorem resolveConfig_blocked {p : Bytes} (blocked : fs.Blocked p) (rooted : Path.isAbsolute p = true) :
    ∃ fault, resolveConfig fs p [] = .error (.unreadable ⟨"open", p, fault⟩) := by
  have there : fs.mayExist p = true := Files.mayExist_iff.mpr (.inr blocked)
  have same : fs.absolute p = p := if_pos rooted
  obtain ⟨fault, located, _⟩ := Files.blocked_iff_locate.mp blocked
  have unread : fs.read p = .error ⟨"open", p, fault⟩ := by
    rw [Files.read, Files.stat, located]
    rfl
  refine ⟨fault, ?_⟩
  simp [resolveConfig, Config.load, there, same, unread]

theorem mayExist_of_present {a : Arguments} {q : Bytes} (refused : (initialise S fs a).2.2 = some (.present q)) :
    fs.mayExist (initPath S a) = true := by
  cases there : fs.mayExist (initPath S a) with
  | true => rfl
  | false =>
    have path : initPath S a = if ((a.text? "config").getD []).isEmpty then S.defaultPath else (a.text? "config").getD [] := rfl
    simp only [initialise, ← path, there, Bool.false_and, Bool.false_eq_true, if_false] at refused
    split at refused
    · cases refused
    · cases refused

/-- A line that writes a first configuration to the default path, if none seems to be there. -/
def InitsDefault (S : Surroundings σ) (line : List Bytes) : Prop :=
  ∃ a, Invokes S line .init a ∧ (a.text? "config").getD [] = [] ∧ a.switch "force" = false

theorem initPath_default {a : Arguments} (none : (a.text? "config").getD [] = []) : initPath S a = S.defaultPath := by
  simp [initPath, none]

/-- The test for a configuration is right about the paths that are not blocked, and about no other. So a missing
default configuration stops no command unless its path is blocked; if it is, no first configuration is written there
without force, and a command that loads one fails to read it. -/
theorem missing_config_harmless_iff_unblocked {σ : Type} (S : Surroundings σ) (fs : Files) :
    (∀ p, (fs.mayExist p = true ↔ ∃ e, fs.stat p = .ok e) ↔ ¬ fs.Blocked p) ∧
    ((∀ e, fs.stat S.defaultPath ≠ .ok e) →
      (¬ fs.Blocked S.defaultPath →
        resolveConfig fs S.defaultPath [] = .ok Config.default ∧
        ∀ line, InitsDefault S line → ∀ q, (run S fs line).error ≠ some (.present q)) ∧
      (fs.Blocked S.defaultPath →
        (Path.isAbsolute S.home = true →
          ∃ fault, resolveConfig fs S.defaultPath [] = .error (.unreadable ⟨"open", S.defaultPath, fault⟩)) ∧
        ∀ line, InitsDefault S line →
          (run S fs line).error = some (.present S.defaultPath) ∧ (run S fs line).files = fs)) := by
  refine ⟨fun p => Files.mayExist_right_iff, fun missing => ⟨fun clear => ?_, fun blocked => ?_⟩⟩
  · have free := mayExist_unblocked missing clear
    constructor
    · simp [resolveConfig, free]
    · rintro line ⟨a, invoked, unnamed, _⟩ q refused
      rw [(run_init fs invoked).2] at refused
      have there := mayExist_of_present refused
      rw [initPath_default unnamed, free] at there
      cases there
  · constructor
    · intro rooted
      exact resolveConfig_blocked blocked (Config.isAbsolute_defaultPath rooted)
    · rintro line ⟨a, invoked, unnamed, careful⟩
      obtain ⟨files, error⟩ := run_init fs invoked
      have there : fs.mayExist (initPath S a) = true := by
        rw [initPath_default unnamed]
        exact Files.mayExist_iff.mpr (.inr blocked)
      rw [files, error, initialise_present there careful, initPath_default unnamed]
      exact ⟨rfl, rfl⟩

/-- A home directory that is a file. -/
def homeIsFile : Files := Config.oneDirectory.put [utf8 "srv", utf8 "home"] (.file 0o644 (utf8 "x"))

def atHome : Surroundings Unit := { inDirectory with home := utf8 "/srv/home" }

theorem initsDefault_atHome : InitsDefault atHome [utf8 "init"] :=
  ⟨⟨[], []⟩, invokes_of_invoked? (by decide +kernel), rfl, rfl⟩

theorem stat_homeIsFile :
    homeIsFile.stat atHome.defaultPath = .error ⟨"stat", atHome.defaultPath, .notDirectory⟩ := rfl

theorem blocked_homeIsFile : homeIsFile.Blocked atHome.defaultPath := by
  rw [Files.blocked_iff, stat_homeIsFile]
  exact ⟨_, rfl, by decide⟩

/-- A home directory that is not there stops nothing; one that is a file keeps a configuration from being written. -/
theorem missing_config_harmless_no_home :
    resolveConfig Config.oneDirectory atHome.defaultPath [] = .ok Config.default ∧
      (run atHome homeIsFile [utf8 "init"]).error = some (.present atHome.defaultPath) := by
  have nowhere : Config.oneDirectory.stat atHome.defaultPath = .error ⟨"stat", atHome.defaultPath, .notFound⟩ := rfl
  constructor
  · have missing : ∀ e, Config.oneDirectory.stat atHome.defaultPath ≠ .ok e := by
      rw [nowhere]
      exact fun _ impossible => nomatch impossible
    apply (((missing_config_harmless_iff_unblocked atHome Config.oneDirectory).2 missing).1 ?_).1
    rw [Files.blocked_iff, nowhere]
    simp
  · have missing : ∀ e, homeIsFile.stat atHome.defaultPath ≠ .ok e := by
      rw [stat_homeIsFile]
      exact fun _ impossible => nomatch impossible
    obtain ⟨_, refused⟩ :=
      ((missing_config_harmless_iff_unblocked atHome homeIsFile).2 missing).2 blocked_homeIsFile
    exact (refused _ initsDefault_atHome).1

/-- Where the home directory is a file there is no configuration, but one is said to be there; it cannot be loaded, and
none can be written. -/
theorem file_for_home_stops_commands :
    (∀ e, homeIsFile.stat atHome.defaultPath ≠ .ok e) ∧ homeIsFile.mayExist atHome.defaultPath = true ∧
      resolveConfig homeIsFile atHome.defaultPath [] ≠ .ok Config.default ∧
      InitsDefault atHome [utf8 "init"] ∧
      (run atHome homeIsFile [utf8 "init"]).error = some (.present atHome.defaultPath) := by
  have there : homeIsFile.mayExist atHome.defaultPath = true := Files.mayExist_iff.mpr (.inr blocked_homeIsFile)
  refine ⟨?_, there, ?_, initsDefault_atHome, ?_⟩
  · rw [stat_homeIsFile]
    exact fun _ impossible => nomatch impossible
  · obtain ⟨fault, unread⟩ := resolveConfig_blocked blocked_homeIsFile rfl
    rw [unread]
    exact fun impossible => nomatch impossible
  · obtain ⟨a, invoked, unnamed, careful⟩ := initsDefault_atHome
    rw [← initPath_default unnamed] at there ⊢
    rw [(run_init homeIsFile invoked).2, initialise_present there careful]

end Command
end BoundedRecords
