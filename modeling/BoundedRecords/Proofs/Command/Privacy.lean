import BoundedRecords.Proofs.Command.Initialise
import BoundedRecords.Proofs.Files.Trees

/-! Who can read a saved configuration. A new file is private. A file that was there keeps its mode, so the key in a
configuration that is written over an open one is open too. -/
namespace BoundedRecords

namespace Files

variable {fs fs' : Files} {l : Location}

theorem modeKept_eq_iff {mode : Nat} :
    fs.modeKept l mode = mode ↔ ∀ old content, fs.entry l = some (.file old content) → old = mode := by
  unfold modeKept
  split
  · rename_i old content there
    simp [there]
  · rename_i other
    simp only [true_iff]
    intro old content there
    exact absurd there (other old content)

theorem Grows.modeKept (grows : fs.Grows fs') (l : Location) (mode : Nat) : fs'.modeKept l mode = fs.modeKept l mode := by
  rcases grows.entry l with same | ⟨free, _, directory⟩
  · rw [Files.modeKept, same]
    rfl
  · rw [Files.modeKept, Files.modeKept, free, directory]

end Files

namespace Config

variable {fs : Files} {path : Bytes} {c : Config}

/-- A file stands where the path leads, and its mode is not that of a private one. -/
def Exposed (fs : Files) (path : Bytes) : Prop :=
  ∃ mode content, fs.entry (fs.location path) = some (.file mode content) ∧ mode ≠ fileMode

theorem not_exposed_iff : ¬ Exposed fs path ↔ fs.modeKept (fs.location path) fileMode = fileMode := by
  rw [Files.modeKept_eq_iff]
  constructor
  · intro closed old content there
    by_cases same : old = fileMode
    · exact same
    · exact absurd ⟨old, content, there, same⟩ closed
  · rintro private_ ⟨old, content, there, other⟩
    exact other (private_ old content there)

/-- Where a configuration was saved, and with which mode. -/
theorem save_mode (saved : (save fs path c).2 = none) :
    (withParents fs path).locate path = .ok (fs.location path) ∧
      (withParents fs path).isDirectory (fs.location path) ≠ .ok () ∧
      (save fs path c).1.stat path = .ok (.file (fs.modeKept (fs.location path) fileMode) c.render) := by
  rcases save_cases fs path c with ⟨e, failed⟩ | ⟨l, located, other, done⟩
  · rw [failed] at saved
    cases saved
  · have grows := withParents_grows fs path
    have place : l = fs.location path := by
      rw [Files.locate_eq located, Files.location, grows.working]
      rfl
    rw [done, grows.modeKept, ← place]
    exact ⟨located, other, Files.stat_eq_ok.mpr ⟨l, Files.locate_put other located, if_pos rfl⟩⟩

/-- In a tree of files, one that was not found was not exposed. -/
theorem not_exposed_of_missing (tree : fs.IsTree) (missing : fs.mayExist path = false)
    (saved : (save fs path c).2 = none) : ¬ Exposed fs path := by
  obtain ⟨located, other, _⟩ := save_mode saved
  rintro ⟨mode, content, there, _⟩
  rw [withParents] at located other
  rw [tree.missing missing located other] at there
  cases there

end Config

namespace Command

/-- The file that a configuration was saved in has its text, and is private unless an exposed one was there. So it is
after a first configuration was written. Only by force can that happen over an exposed one. -/
theorem saved_config_private_unless_exposed (fs : Files) (path : Bytes) :
    (∀ c, (Config.save fs path c).2 = none →
      ∃ mode, (Config.save fs path c).1.stat path = .ok (.file mode c.render) ∧
        (mode = Config.fileMode ↔ ¬ Config.Exposed fs path)) ∧
    ∀ {σ : Type} (S : Surroundings σ) (line : List Bytes) (a : Arguments),
      Invokes S line .init a → initPath S a = path → (run S fs line).error = none →
      ∃ mode, (run S fs line).files.stat path = .ok (.file mode (Config.first (initBudget a) S.key).render) ∧
        (mode = Config.fileMode ↔ ¬ Config.Exposed fs path) ∧
        (a.switch "force" = false → fs.IsTree → mode = Config.fileMode) := by
  constructor
  · intro c saved
    exact ⟨_, (Config.save_mode saved).2.2, Config.not_exposed_iff.symm⟩
  · intro σ S line a invoked at_ succeeded
    obtain ⟨files, error⟩ := run_init fs invoked
    have ended : (initialise S fs a).2.2 = none := by rw [← error, succeeded]
    have booted := initialise_done ended
    rw [at_, ← files] at booted
    obtain ⟨_, _, done⟩ := Config.bootstrap_ok booted
    have saved : (Config.save fs path (Config.first (initBudget a) S.key)).2 = none := by rw [done]
    have written := (Config.save_mode saved).2.2
    rw [done] at written
    refine ⟨_, written, Config.not_exposed_iff.symm, fun careful tree => ?_⟩
    apply Config.not_exposed_iff.mp
    apply Config.not_exposed_of_missing tree ?_ saved
    cases there : fs.mayExist path with
    | false => rfl
    | true =>
      -- Without force the command is refused.
      rw [initialise_present (at_ ▸ there) careful] at ended
      cases ended

theorem isTree_oneDirectory : Config.oneDirectory.IsTree := by
  refine ⟨fun l name found => ?_, rfl⟩
  by_cases top : l = []
  · subst top
    rfl
  · obtain ⟨first, rest, rfl⟩ := List.exists_cons_of_ne_nil top
    simp [Config.oneDirectory] at found

/-- The directory is made on the way, and the path goes back through it. -/
theorem saved_config_private_new_directory :
    let line := ["init", "--config", "conf/../conf/app.yaml", "--budget", "1000"].map utf8
    let r := run inDirectory Config.oneDirectory line
    r.error = none ∧
      r.files.stat Config.roundabout = .ok (.file 0o600 (Config.first 1000 inDirectory.key).render) := by
  intro line r
  have invoked : Invokes inDirectory line .init
      ⟨[("budget", .number 1000), ("config", .text Config.roundabout)], []⟩ :=
    invokes_of_invoked? (by decide +kernel)
  have succeeded : r.error = none := by
    rw [← Option.isNone_iff_eq_none]
    decide +kernel
  obtain ⟨mode, written, _, private_⟩ := (saved_config_private_unless_exposed Config.oneDirectory Config.roundabout).2
    inDirectory line _ invoked rfl succeeded
  rw [private_ rfl isTree_oneDirectory] at written
  exact ⟨succeeded, written⟩

/-- A directory with a configuration that everyone can read. -/
def openConfig : Files := Config.oneDirectory.put [utf8 "srv", utf8 "c.yaml"] (.file 0o644 (utf8 "old"))

/-- The new key can be read by everyone. -/
theorem key_written_to_open_file :
    (∃ fs path c, (Config.save fs path c).2 = none ∧
      (Config.save fs path c).1.stat path ≠ .ok (.file Config.fileMode c.render)) ∧
    let r := run inDirectory openConfig (["init", "--config", "c.yaml", "--force"].map utf8)
    r.error = none ∧ r.files.stat (utf8 "c.yaml") = .ok (.file 0o644 (Config.first 0 inDirectory.key).render) := by
  constructor
  · have kept : (Config.save openConfig (utf8 "c.yaml") Config.default).1.stat (utf8 "c.yaml") =
        .ok (.file 0o644 Config.default.render) := eq_ok_of_toOption (by decide +kernel)
    refine ⟨openConfig, utf8 "c.yaml", Config.default, ?_, ?_⟩
    · rw [← Option.isNone_iff_eq_none]
      decide +kernel
    · rw [kept]
      intro same
      exact absurd (FileEntry.file.inj (Except.ok.inj same)).1 (by decide)
  · constructor
    · rw [← Option.isNone_iff_eq_none]
      decide +kernel
    · exact eq_ok_of_toOption (by decide +kernel)

end Command
end BoundedRecords
