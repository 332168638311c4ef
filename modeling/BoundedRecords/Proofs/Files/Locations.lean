import BoundedRecords.Files.Tree

/-! Where paths lead. A path and its absolute form lead to the same location, and a file that was written is
found again under either. -/
namespace BoundedRecords

-- Results can be compared where errors cannot.
theorem eq_ok_of_toOption {ε α : Type} {x : Except ε α} {a : α} (some : x.toOption = some a) : x = .ok a := by
  cases x with
  | error e => cases some
  | ok b => exact congrArg Except.ok (Option.some.inj some)

/-! Pieces between separators. -/

namespace Bytes

/-- One byte of a text that is being split: a separator ends the piece. -/
def splitStep (sep : UInt8) : Bytes × List Bytes → UInt8 → Bytes × List Bytes
  | (piece, done), b => if b == sep then ([], piece.reverse :: done) else (b :: piece, done)

theorem splitOn_eq (sep : UInt8) (s : Bytes) :
    splitOn sep s = ((s.foldl (splitStep sep) ([], [])).1.reverse :: (s.foldl (splitStep sep) ([], [])).2).reverse := rfl

theorem foldl_splitStep (sep : UInt8) (s piece : Bytes) (done : List Bytes) :
    s.foldl (splitStep sep) (piece, done) =
      ((s.foldl (splitStep sep) (piece, [])).1, (s.foldl (splitStep sep) (piece, [])).2 ++ done) := by
  induction s generalizing piece done with
  | nil => rfl
  | cons b s ih =>
    simp only [List.foldl_cons, splitStep]
    split
    · rw [ih [] (piece.reverse :: done), ih [] [piece.reverse]]
      simp
    · exact ih (b :: piece) done

theorem splitOn_append (sep : UInt8) (u v : Bytes) : splitOn sep (u ++ sep :: v) = splitOn sep u ++ splitOn sep v := by
  simp only [splitOn_eq, List.foldl_append, List.foldl_cons]
  generalize u.foldl (splitStep sep) ([], []) = first
  have ends : splitStep sep first sep = ([], first.1.reverse :: first.2) := by
    simp only [splitStep, BEq.rfl, if_true]
  rw [ends, foldl_splitStep]
  simp

theorem foldl_splitStep_free {sep : UInt8} {s : Bytes} (free : sep ∉ s) (piece : Bytes) (done : List Bytes) :
    s.foldl (splitStep sep) (piece, done) = (s.reverse ++ piece, done) := by
  induction s generalizing piece with
  | nil => rfl
  | cons b s ih =>
    have other : (b == sep) = false := by
      rw [beq_eq_false_iff_ne]
      rintro rfl
      exact free List.mem_cons_self
    rw [List.foldl_cons, splitStep, other, if_neg Bool.false_ne_true,
      ih fun found => free (List.mem_cons_of_mem b found)]
    simp

theorem splitOn_free {sep : UInt8} {s : Bytes} (free : sep ∉ s) : splitOn sep s = [s] := by
  rw [splitOn_eq, foldl_splitStep_free free]
  simp

theorem free_of_mem_splitOn {sep : UInt8} {s piece : Bytes} (found : piece ∈ splitOn sep s) : sep ∉ piece := by
  generalize size : s.length = n
  induction n using Nat.strongRecOn generalizing s with
  | ind n ih =>
    by_cases divided : sep ∈ s
    · obtain ⟨u, v, rfl, free⟩ := List.eq_append_cons_of_mem divided
      rw [splitOn_append, splitOn_free free] at found
      rcases List.mem_append.mp found with first | later
      · rw [List.mem_singleton.mp first]
        exact free
      · apply ih v.length ?_ later rfl
        rw [← size, List.length_append, List.length_cons]
        omega
    · rw [splitOn_free divided, List.mem_singleton] at found
      rw [found]
      exact divided

end Bytes

namespace Path

/-- A name as a path can hold it between slashes. -/
def IsName (name : Bytes) : Prop := name ≠ [] ∧ slash ∉ name

/-- A name that leads to an entry of a directory. -/
structure Proper (name : Bytes) : Prop where
  isName : IsName name
  notDot : name ≠ dot
  notDotDot : name ≠ dotDot

theorem components_append (u v : Bytes) : components (u ++ slash :: v) = components u ++ components v := by
  rw [components, Bytes.splitOn_append, List.filter_append]
  rfl

theorem components_name {name : Bytes} (isName : IsName name) : components name = [name] := by
  have filled : name.isEmpty = false := by simpa using isName.1
  simp only [components, Bytes.splitOn_free isName.2, List.filter_cons, filled, Bool.not_false, if_true, List.filter_nil]

theorem isName_of_component {p c : Bytes} (found : c ∈ components p) : IsName c := by
  rw [components, List.mem_filter] at found
  exact ⟨by simpa using found.2, Bytes.free_of_mem_splitOn found.1⟩

theorem components_join {names : List Bytes} (each : ∀ name ∈ names, IsName name) :
    components (Bytes.join [slash] names) = names := by
  induction names with
  | nil => rfl
  | cons name names ih =>
    have first := components_name (each name List.mem_cons_self)
    cases names with
    | nil => exact first
    | cons next names =>
      have later := ih fun other found => each other (List.mem_cons_of_mem name found)
      have shape : Bytes.join [slash] (name :: next :: names) = name ++ slash :: Bytes.join [slash] (next :: names) := by
        rw [Bytes.join, List.append_assoc]
        · rfl
        · exact fun impossible => nomatch impossible
      rw [shape, components_append, first, later]
      rfl

/-! Cleaning. -/

/-- One component, taken by the cleaner and by a walk. -/
theorem cleanStep_next {done : List Bytes} {c : Bytes} (proper : ∀ name ∈ done, Proper name) (isName : IsName c) :
    (cleanStep true done c).reverse = Files.next done.reverse c ∧ ∀ name ∈ cleanStep true done c, Proper name := by
  unfold cleanStep Files.next
  split
  · exact ⟨rfl, proper⟩
  · rename_i notDot
    split
    · cases done with
      | nil => exact ⟨rfl, proper⟩
      | cons last before =>
        have other : (last == dotDot) = false := beq_eq_false_iff_ne.mpr (proper last List.mem_cons_self).notDotDot
        simp only [other, Bool.false_eq_true, if_false]
        exact ⟨by simp, fun name found => proper name (List.mem_cons_of_mem last found)⟩
    · rename_i notDotDot
      refine ⟨List.reverse_cons .., List.forall_mem_cons.mpr ⟨⟨isName, ?_, ?_⟩, proper⟩⟩
      · simpa using notDot
      · simpa using notDotDot

theorem foldl_cleanStep {names done : List Bytes} (each : ∀ name ∈ names, IsName name)
    (proper : ∀ name ∈ done, Proper name) :
    (names.foldl (cleanStep true) done).reverse = names.foldl Files.next done.reverse ∧
      ∀ name ∈ names.foldl (cleanStep true) done, Proper name := by
  induction names generalizing done with
  | nil => exact ⟨rfl, proper⟩
  | cons c names ih =>
    obtain ⟨moved, kept⟩ := cleanStep_next proper (each c List.mem_cons_self)
    rw [List.foldl_cons, List.foldl_cons, ← moved]
    exact ih (fun name found => each name (List.mem_cons_of_mem c found)) kept

theorem foldl_next_proper {names : List Bytes} (proper : ∀ name ∈ names, Proper name) (l : Location) :
    names.foldl Files.next l = l ++ names := by
  induction names generalizing l with
  | nil => exact (List.append_nil l).symm
  | cons name names ih =>
    have first := proper name List.mem_cons_self
    have step : Files.next l name = l ++ [name] := by
      rw [Files.next, beq_eq_false_iff_ne.mpr first.notDot, beq_eq_false_iff_ne.mpr first.notDotDot]
      rfl
    rw [List.foldl_cons, step, ih fun other found => proper other (List.mem_cons_of_mem name found)]
    simp

theorem components_clean {p : Bytes} (rooted : isAbsolute p = true) :
    components (clean p) = (components p).foldl Files.next [] ∧ ∀ name ∈ components (clean p), Proper name := by
  obtain ⟨leads, proper⟩ := @foldl_cleanStep (components p) [] (fun _ found => isName_of_component found)
    (fun _ impossible => nomatch impossible)
  have kept : ∀ name ∈ ((components p).foldl (cleanStep true) []).reverse, Proper name := by simpa using proper
  have names : components (clean p) = ((components p).foldl (cleanStep true) []).reverse := by
    have shape : clean p = [] ++ slash :: Bytes.join [slash] ((components p).foldl (cleanStep true) []).reverse := by
      simp only [clean, rooted, if_true, List.nil_append]
    rw [shape, components_append, components_join fun name found => (kept name found).isName]
    rfl
  rw [names]
  exact ⟨leads, kept⟩

/-- A clean path from the root leads where the path leads. -/
theorem foldl_next_clean {p : Bytes} (rooted : isAbsolute p = true) :
    (components (clean p)).foldl Files.next [] = (components p).foldl Files.next [] := by
  obtain ⟨names, proper⟩ := components_clean rooted
  rw [foldl_next_proper proper, List.nil_append, names]

theorem isAbsolute_clean {p : Bytes} (rooted : isAbsolute p = true) : isAbsolute (clean p) = true := by
  simp only [clean, rooted, if_true]
  rfl

end Path

namespace Files

/-! Locations. -/

/-- Where a path leads if all its places are there. -/
def location (fs : Files) (p : Bytes) : Location :=
  (Path.components p).foldl next (if Path.isAbsolute p then [] else fs.working)

theorem walk_cons_eq_ok {fs : Files} {l l' : Location} {name : Bytes} {names : List Bytes} :
    fs.walk l (name :: names) = .ok l' ↔
      fs.isDirectory l = .ok () ∧ name.length ≤ maxName ∧ fs.walk (next l name) names = .ok l' := by
  cases checked : fs.isDirectory l with
  | error e => simp [walk, checked, bind, Except.bind]
  | ok u =>
    by_cases long : maxName < name.length
    · simp [walk, checked, long, Nat.not_le.mpr long, bind, Except.bind, throw, throwThe, MonadExceptOf.throw]
    · simp [walk, checked, long, bind, Except.bind, Nat.not_lt.mp long]

theorem walk_eq {fs : Files} {l l' : Location} {names : List Bytes} (walked : fs.walk l names = .ok l') :
    l' = names.foldl next l := by
  induction names generalizing l with
  | nil => exact (Except.ok.inj walked).symm
  | cons name names ih => exact ih (walk_cons_eq_ok.mp walked).2.2

/-- A place that is no directory can change without an effect on a walk. -/
theorem walk_put {fs : Files} {l l' place : Location} {names : List Bytes} {e : FileEntry}
    (other : fs.isDirectory place ≠ .ok ()) (walked : fs.walk l names = .ok l') :
    (fs.put place e).walk l names = .ok l' := by
  induction names generalizing l with
  | nil => exact walked
  | cons name names ih =>
    obtain ⟨directory, short, later⟩ := walk_cons_eq_ok.mp walked
    refine walk_cons_eq_ok.mpr ⟨?_, short, ih later⟩
    have apart : l ≠ place := by
      rintro rfl
      exact other directory
    have same : (fs.put place e).entry l = fs.entry l := if_neg apart
    rw [isDirectory, same]
    exact directory

theorem foldl_next_names (p : Bytes) (l : Location) : (names p).foldl next l = (Path.components p).foldl next l := by
  rw [names, List.foldl_append]
  split
  · rfl
  · rfl

theorem locate_eq_ok {fs : Files} {p : Bytes} {l : Location} :
    fs.locate p = .ok l ↔
      (p ≠ [] ∧ 0 ∉ p ∧ p.length ≤ maxPath) ∧ fs.walk (if Path.isAbsolute p then [] else fs.working) (names p) = .ok l := by
  by_cases filled : p = []
  · simp [locate, filled]
  · by_cases clear : 0 ∈ p
    · simp [locate, filled, clear]
    · by_cases short : p.length ≤ maxPath
      · simp [locate, filled, clear, short, Nat.not_lt.mpr short]
      · simp [locate, filled, clear, short, Nat.not_le.mp short]

theorem locate_eq {fs : Files} {p : Bytes} {l : Location} (located : fs.locate p = .ok l) : l = fs.location p := by
  rw [walk_eq (locate_eq_ok.mp located).2, foldl_next_names]
  rfl

theorem locate_put {fs : Files} {p : Bytes} {l place : Location} {e : FileEntry} (other : fs.isDirectory place ≠ .ok ())
    (located : fs.locate p = .ok l) : (fs.put place e).locate p = .ok l := by
  obtain ⟨usable, walked⟩ := locate_eq_ok.mp located
  exact locate_eq_ok.mpr ⟨usable, walk_put other walked⟩

theorem failed_eq_ok {α : Type} {operation : String} {p : Bytes} {x : Except PathFault α} {a : α} :
    failed operation p x = .ok a ↔ x = .ok a := by
  cases x with
  | error e => simp [failed]
  | ok b => simp [failed]

theorem stat_eq_ok {fs : Files} {p : Bytes} {e : FileEntry} :
    fs.stat p = .ok e ↔ ∃ l, fs.locate p = .ok l ∧ fs.entry l = some e := by
  rw [stat, failed_eq_ok]
  cases located : fs.locate p with
  | error fault => simp [bind, Except.bind]
  | ok l =>
    cases entry : fs.entry l with
    | none => simp [entry, bind, Except.bind, throw, throwThe, MonadExceptOf.throw]
    | some found => simp [entry, bind, Except.bind, pure, Except.pure]

/-- The mode of a file after it was written: that of the file which was there, if there was one. -/
def modeKept (fs : Files) (l : Location) (mode : Nat) : Nat :=
  match fs.entry l with
  | some (.file old _) => old
  | _ => mode

/-- What was written stands where the path leads. -/
theorem write_eq_ok {fs fs' : Files} {p content : Bytes} {mode : Nat} (wrote : fs.write p mode content = .ok fs') :
    ∃ l, fs.locate p = .ok l ∧ fs.isDirectory l ≠ .ok () ∧ fs' = fs.put l (.file (fs.modeKept l mode) content) := by
  rw [write, failed_eq_ok] at wrote
  generalize (p.reverse.dropWhile (· == Path.slash)).reverse = trimmed at wrote
  simp only [bind, Except.bind] at wrote
  split at wrote
  · cases wrote
  rename_i l located
  have there : trimmed = p → fs.locate p = .ok l := by
    rintro rfl
    rw [ite_self] at located
    exact located
  -- A path with a slash at its end asks for a directory, and is refused.
  split at wrote
  · cases wrote
  · rename_i kept old entry
    split at wrote
    · cases wrote
    · rename_i same
      have other : fs.isDirectory l ≠ .ok () := by
        rw [isDirectory, entry]
        exact fun impossible => nomatch impossible
      have remains : fs.modeKept l mode = kept := by rw [modeKept, entry]
      refine ⟨l, there (by simpa using same), other, ?_⟩
      rw [remains]
      exact (Except.ok.inj wrote).symm
  · rename_i entry
    split at wrote
    · cases wrote
    · rename_i same
      have other : fs.isDirectory l ≠ .ok () := by
        rw [isDirectory, entry]
        exact fun impossible => nomatch impossible
      have fresh : fs.modeKept l mode = mode := by rw [modeKept, entry]
      refine ⟨l, there (by simpa using same), other, ?_⟩
      rw [fresh]
      exact (Except.ok.inj wrote).symm

end Files
end BoundedRecords
