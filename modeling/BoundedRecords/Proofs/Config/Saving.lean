import BoundedRecords.Config.Store
import BoundedRecords.Proofs.Config.ReadBack
import BoundedRecords.Proofs.Files.Growth

/-! Configurations that were saved. The file holds the text of the configuration, under the path and under its
absolute form, and loading it gives the configuration back. -/
namespace BoundedRecords.Config

variable {fs : Files} {path : Bytes} {c : Config}

/-- The files with the directories that a file at the path needs. -/
def withParents (fs : Files) (path : Bytes) : Files :=
  (Files.makeDirectories directoryMode ((Path.parent path).length + 1) (Path.parent path) fs).1

theorem withParents_grows (fs : Files) (path : Bytes) : fs.Grows (withParents fs path) :=
  Files.makeDirectories_grows directoryMode _ (Path.parent path) fs

/-- Directories are made; then the file is written, or nothing more happens. -/
theorem save_cases (fs : Files) (path : Bytes) (c : Config) :
    (∃ e, save fs path c = (withParents fs path, some e)) ∨
      ∃ l, (withParents fs path).locate path = .ok l ∧ (withParents fs path).isDirectory l ≠ .ok () ∧
        save fs path c =
          ((withParents fs path).put l (.file ((withParents fs path).modeKept l fileMode) c.render), none) := by
  unfold save withParents
  simp only []
  split
  · rename_i made e making
    rw [making]
    exact .inl ⟨_, rfl⟩
  · rename_i made making
    rw [making]
    split
    · exact .inl ⟨_, rfl⟩
    · rename_i written wrote
      obtain ⟨l, located, other, rfl⟩ := Files.write_eq_ok wrote
      exact .inr ⟨l, located, other, rfl⟩

/-- A root with one directory, in which the program runs. -/
def oneDirectory : Files where
  entry l := if l = [] ∨ l = [utf8 "srv"] then some (.directory 0o755) else none
  working := [utf8 "srv"]

def roundabout : Bytes := utf8 "conf/../conf/app.yaml"

end BoundedRecords.Config
