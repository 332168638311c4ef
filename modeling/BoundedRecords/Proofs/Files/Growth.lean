import BoundedRecords.Proofs.Files.Locations

/-! What making directories leaves alone. The tree grows by directories; no entry that was there changes. -/
namespace BoundedRecords.Files

/-- All that the first tree has, and beyond it directories only. -/
structure Grows (fs fs' : Files) : Prop where
  working : fs'.working = fs.working
  entry : ∀ l, fs'.entry l = fs.entry l ∨ fs.entry l = none ∧ ∃ mode, fs'.entry l = some (.directory mode)

variable {fs fs' fs'' : Files}

theorem Grows.refl (fs : Files) : Grows fs fs := ⟨rfl, fun _ => .inl rfl⟩

theorem Grows.trans (first : Grows fs fs') (second : Grows fs' fs'') : Grows fs fs'' := by
  constructor
  · exact second.working.trans first.working
  · intro l
    rcases second.entry l with same | ⟨free, made⟩
    · rw [same]
      exact first.entry l
    · right
      rcases first.entry l with same | ⟨_, mode, directory⟩
      · exact ⟨same ▸ free, made⟩
      · rw [directory] at free
        cases free

theorem makeDirectory_eq_ok {p : Bytes} {mode : Nat} (made : fs.makeDirectory p mode = .ok fs') :
    ∃ place, fs.locate p = .ok place ∧ fs.entry place = none ∧ fs' = fs.put place (.directory mode) := by
  rw [makeDirectory, failed_eq_ok] at made
  simp only [bind, Except.bind] at made
  split at made
  · cases made
  split at made
  · cases made
  · rename_i place located _ free
    exact ⟨place, located, free, (Except.ok.inj made).symm⟩

theorem makeDirectory_grows {p : Bytes} {mode : Nat} (made : fs.makeDirectory p mode = .ok fs') : Grows fs fs' := by
  obtain ⟨place, _, free, rfl⟩ := makeDirectory_eq_ok made
  constructor
  · rfl
  · intro l
    by_cases here : l = place
    · subst here
      exact .inr ⟨free, mode, if_pos rfl⟩
    · exact .inl (if_neg here)

/-- The second path is the first, or leads to a place above it. -/
inductive Ancestor : Bytes → Bytes → Prop where
  | self (p : Bytes) : Ancestor p p
  | above {p q r : Bytes} : above p = some q → Ancestor q r → Ancestor p r

/-- What every single directory keeps to is kept to when directories are made together. -/
theorem makeDirectories_steps {R : Files → Files → Prop} (refl : ∀ fs, R fs fs)
    (trans : ∀ {fs fs' fs''}, R fs fs' → R fs' fs'' → R fs fs'') (mode fuel : Nat) {p : Bytes}
    (step : ∀ q, Ancestor p q → ∀ fs fs', makeDirectory fs q mode = .ok fs' → R fs fs') (fs : Files) :
    R fs (makeDirectories mode fuel p fs).1 := by
  induction fuel generalizing p fs with
  | zero => exact refl fs
  | succ fuel ih =>
    rw [makeDirectories]
    split
    · exact refl fs
    · exact refl fs
    · dsimp only
      split
      · rename_i above
        split at above
        · rename_i q higher
          have grown := ih (fun r later => step r (.above higher later)) fs
          rwa [above] at grown
        · cases above
      · -- The directories above are there; then this one is made.
        rename_i after above
        have before : R fs after := by
          split at above
          · rename_i q higher
            have grown := ih (fun r later => step r (.above higher later)) fs
            rwa [above] at grown
          · cases above
            exact refl fs
        split
        · rename_i made
          exact trans before (step p (.self p) _ _ made)
        · exact before

theorem makeDirectories_grows (mode fuel : Nat) (p : Bytes) (fs : Files) :
    Grows fs (makeDirectories mode fuel p fs).1 :=
  makeDirectories_steps Grows.refl Grows.trans mode fuel (fun _ _ _ _ made => makeDirectory_grows made) fs

end BoundedRecords.Files
