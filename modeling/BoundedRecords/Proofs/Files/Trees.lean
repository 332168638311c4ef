import BoundedRecords.Proofs.Files.Growth

/-! Trees of files. Where every entry stands in a directory, the directories that are made for a file stand on the way to
it. So a file that was not found before they were made was not there. -/
namespace BoundedRecords

namespace Path

/-! Relative paths. Cleaning one leaves steps back, and proper names behind them. -/

/-- Steps back with proper names behind them, latest first. -/
def Climbs (done : List Bytes) : Prop :=
  ∃ names m, done = names ++ List.replicate m dotDot ∧ ∀ name ∈ names, Proper name

theorem isName_dotDot : IsName dotDot := ⟨by decide, by decide⟩

theorem Climbs.isName {done : List Bytes} (climbs : Climbs done) : ∀ name ∈ done, IsName name := by
  obtain ⟨names, m, rfl, proper⟩ := climbs
  intro name found
  rcases List.mem_append.mp found with first | later
  · exact (proper name first).isName
  · rw [List.eq_of_mem_replicate later]
    exact isName_dotDot

theorem climbs_cons {done : List Bytes} {c : Bytes} (climbs : Climbs done) (proper : Proper c) : Climbs (c :: done) := by
  obtain ⟨names, m, rfl, each⟩ := climbs
  exact ⟨c :: names, m, rfl, List.forall_mem_cons.mpr ⟨proper, each⟩⟩

/-- A step back leaves the last name, or follows steps back only. -/
theorem climbs_back {last : Bytes} {before : List Bytes} (climbs : Climbs (last :: before)) :
    (last ≠ dotDot → Proper last ∧ Climbs before) ∧ (last = dotDot → Climbs (dotDot :: last :: before)) := by
  obtain ⟨names, m, split, proper⟩ := climbs
  cases names with
  | nil =>
    rw [List.nil_append] at split
    have back : last = dotDot := by
      apply List.eq_of_mem_replicate (n := m)
      rw [← split]
      exact List.mem_cons_self
    refine ⟨fun other => absurd back other, fun _ => ⟨[], m + 1, ?_, fun _ none => nomatch none⟩⟩
    rw [split]
    rfl
  | cons name names =>
    obtain ⟨rfl, rfl⟩ := List.cons.inj split
    rw [List.forall_mem_cons] at proper
    exact ⟨fun _ => ⟨proper.1, names, m, rfl, proper.2⟩, fun back => absurd back proper.1.notDotDot⟩

theorem next_proper {name : Bytes} (proper : Proper name) (l : Location) : Files.next l name = l ++ [name] :=
  foldl_next_proper (List.forall_mem_singleton.mpr proper) l

/-- One component, taken by the cleaner and by a walk. -/
theorem cleanStep_climbs {done : List Bytes} {c : Bytes} (climbs : Climbs done) (isName : IsName c) :
    Climbs (cleanStep false done c) ∧
      ∀ l, (cleanStep false done c).reverse.foldl Files.next l = Files.next (done.reverse.foldl Files.next l) c := by
  have concat : ∀ l, (c :: done).reverse.foldl Files.next l = Files.next (done.reverse.foldl Files.next l) c := by
    intro l
    rw [List.reverse_cons, List.foldl_append]
    rfl
  unfold cleanStep
  split
  · rename_i same
    rw [beq_iff_eq.mp same]
    exact ⟨climbs, fun l => rfl⟩
  · rename_i notDot
    split
    · rename_i back
      rw [beq_iff_eq.mp back] at concat ⊢
      cases done with
      | nil => exact ⟨⟨[], 1, rfl, fun _ none => nomatch none⟩, concat⟩
      | cons last before =>
        dsimp only
        split
        · rename_i again
          exact ⟨(climbs_back climbs).2 (beq_iff_eq.mp again), concat⟩
        · -- The name is taken back, and so is the step that a walk made into it.
          rename_i name
          obtain ⟨proper, rest⟩ := (climbs_back climbs).1 fun same => name (beq_iff_eq.mpr same)
          refine ⟨rest, fun l => ?_⟩
          rw [List.reverse_cons, List.foldl_append, List.foldl_cons, List.foldl_nil, next_proper proper]
          exact (List.dropLast_concat ..).symm
    · rename_i notDotDot
      refine ⟨climbs_cons climbs ⟨isName, ?_, ?_⟩, concat⟩
      · simpa using notDot
      · simpa using notDotDot

theorem foldl_cleanStep_climbs {names done : List Bytes} (each : ∀ name ∈ names, IsName name) (climbs : Climbs done) :
    Climbs (names.foldl (cleanStep false) done) ∧
      ∀ l, (names.foldl (cleanStep false) done).reverse.foldl Files.next l =
        names.foldl Files.next (done.reverse.foldl Files.next l) := by
  induction names generalizing done with
  | nil => exact ⟨climbs, fun _ => rfl⟩
  | cons c names ih =>
    rw [List.forall_mem_cons] at each
    obtain ⟨kept, moved⟩ := cleanStep_climbs climbs each.1
    obtain ⟨rest, leads⟩ := ih each.2 kept
    refine ⟨rest, fun l => ?_⟩
    rw [List.foldl_cons, List.foldl_cons, leads, moved]

theorem join_relative {names : List Bytes} (each : ∀ name ∈ names, IsName name) :
    isAbsolute (Bytes.join [slash] names) = false ∧ (names ≠ [] → Bytes.join [slash] names ≠ []) := by
  cases names with
  | nil => exact ⟨rfl, fun some => absurd rfl some⟩
  | cons name names =>
    obtain ⟨filled, free⟩ := each name List.mem_cons_self
    obtain ⟨b, name, rfl⟩ := List.exists_cons_of_ne_nil filled
    have other : b ≠ slash := by
      rintro rfl
      exact free List.mem_cons_self
    have shape : ∃ rest, Bytes.join [slash] ((b :: name) :: names) = b :: rest := by
      cases names with
      | nil => exact ⟨name, rfl⟩
      | cons next names => exact ⟨_, rfl⟩
    obtain ⟨rest, shape⟩ := shape
    rw [shape]
    refine ⟨?_, fun _ => List.cons_ne_nil b rest⟩
    simpa [isAbsolute] using other

theorem clean_relative {p : Bytes} (relative : isAbsolute p = false) :
    isAbsolute (clean p) = false ∧ ∃ done, Climbs done ∧
      (components (clean p) = done.reverse ∨ done = [] ∧ components (clean p) = [dot]) ∧
      ∀ l, done.reverse.foldl Files.next l = (components p).foldl Files.next l := by
  have empty : Climbs [] := ⟨[], 0, rfl, fun _ none => nomatch none⟩
  obtain ⟨climbs, leads⟩ := foldl_cleanStep_climbs (fun _ found => isName_of_component (p := p) found) empty
  generalize done_eq : (components p).foldl (cleanStep false) [] = done at climbs leads
  have isName : ∀ name ∈ done.reverse, IsName name := fun name found => climbs.isName name (List.mem_reverse.mp found)
  obtain ⟨unrooted, filled⟩ := join_relative isName
  have shape : clean p = if (Bytes.join [slash] done.reverse).isEmpty then dot else Bytes.join [slash] done.reverse := by
    simp only [clean, relative, done_eq, Bool.false_eq_true, if_false]
  cases done with
  | nil =>
    rw [shape]
    exact ⟨rfl, [], climbs, .inr ⟨rfl, rfl⟩, leads⟩
  | cons last before =>
    have some : (Bytes.join [slash] (last :: before).reverse).isEmpty = false := by
      rw [List.isEmpty_eq_false_iff]
      exact filled (by simp)
    rw [shape, some, if_neg Bool.false_ne_true]
    exact ⟨unrooted, last :: before, climbs, .inl (components_join isName), leads⟩

/-! The path above. -/

/-- A path divided behind its last slash. -/
theorem parent_split (p : Bytes) :
    ∃ u name, p = u ++ name ∧ slash ∉ name ∧ parent p = clean u ∧ (u = [] ∨ ∃ v, u = v ++ [slash]) := by
  refine ⟨(p.reverse.dropWhile (· != slash)).reverse, (p.reverse.takeWhile (· != slash)).reverse, ?_, ?_, rfl, ?_⟩
  · rw [← List.reverse_append, List.takeWhile_append_dropWhile, List.reverse_reverse]
  · intro found
    have other := List.all_eq_true.mp (List.all_takeWhile (p := (· != slash))) slash (List.mem_reverse.mp found)
    exact absurd other (by decide)
  · cases rest : p.reverse.dropWhile (· != slash) with
    | nil => exact .inl rfl
    | cons b more =>
      have first : b = slash := by
        have filled : p.reverse.dropWhile (· != slash) ≠ [] := by
          rw [rest]
          exact List.cons_ne_nil b more
        simpa [rest] using List.head_dropWhile_not (· != slash) filled
      rw [first, List.reverse_cons]
      exact .inr ⟨more.reverse, rfl⟩

section

variable {u name : Bytes} (divided : u = [] ∨ ∃ v, u = v ++ [slash])

include divided

theorem components_divided : components (u ++ name) = components u ++ components name := by
  rcases divided with rfl | ⟨v, rfl⟩
  · rfl
  · have whole := components_append v []
    rw [List.append_assoc, List.singleton_append, components_append, whole]
    simp [show components [] = [] from rfl]

theorem isAbsolute_divided (free : slash ∉ name) : isAbsolute (u ++ name) = isAbsolute u := by
  rcases divided with rfl | ⟨v, rfl⟩
  · cases name with
    | nil => rfl
    | cons b name =>
      have other : b ≠ slash := by
        rintro rfl
        exact free List.mem_cons_self
      simpa [isAbsolute] using other
  · cases v with
    | nil => rfl
    | cons b v => rfl

end

end Path

namespace Files

variable {fs fs' : Files} {l l' : Location}

theorem location_clean (fs : Files) (p : Bytes) : fs.location (Path.clean p) = fs.location p := by
  cases rooted : Path.isAbsolute p with
  | true => simp only [location, rooted, Path.isAbsolute_clean rooted, if_true, Path.foldl_next_clean rooted]
  | false =>
    obtain ⟨unrooted, done, _, shape, leads⟩ := Path.clean_relative rooted
    simp only [location, rooted, unrooted, Bool.false_eq_true, if_false]
    rcases shape with names | ⟨rfl, names⟩
    · rw [names, leads]
    · rw [names, ← leads]
      rfl

/-! Places on the way. -/

/-- A place that is passed on the way to where a path leads. -/
def OnWay (fs : Files) (p : Bytes) (l : Location) : Prop :=
  ∃ k, l = ((Path.components p).take k).foldl next (if Path.isAbsolute p then [] else fs.working)

theorem above_eq_some {p q : Bytes} (above_ : above p = some q) : q ≠ [] ∧ ∃ rest, p = q ++ Path.slash :: rest := by
  simp only [above] at above_
  have first := List.takeWhile_append_dropWhile (p := (· == Path.slash)) (l := p.reverse)
  generalize p.reverse.takeWhile (· == Path.slash) = slashes at first
  generalize p.reverse.dropWhile (· == Path.slash) = r at first above_
  have second := List.takeWhile_append_dropWhile (p := (· != Path.slash)) (l := r)
  split at above_
  · rename_i long
    cases above_
    cases rest : r.dropWhile (· != Path.slash) with
    | nil =>
      rw [rest] at long
      exact absurd long (by decide)
    | cons b more =>
      have slash : b = Path.slash := by
        have filled : r.dropWhile (· != Path.slash) ≠ [] := by
          rw [rest]
          exact List.cons_ne_nil b more
        simpa [rest] using List.head_dropWhile_not (· != Path.slash) filled
      rw [rest, List.reverse_cons, List.length_append, List.length_singleton] at long
      rw [List.reverse_cons, List.dropLast_concat]
      constructor
      · rintro none
        rw [none] at long
        exact absurd long (by decide)
      · rw [rest, slash] at second
        refine ⟨(r.takeWhile (· != Path.slash)).reverse ++ slashes.reverse, ?_⟩
        generalize r.takeWhile (· != Path.slash) = name at second
        rw [← List.reverse_reverse p, ← first, ← second]
        simp
  · cases above_

theorem onWay_above {p q : Bytes} (above_ : above p = some q) (on : OnWay fs q l) : OnWay fs p l := by
  obtain ⟨filled, rest, rfl⟩ := above_eq_some above_
  obtain ⟨k, rfl⟩ := on
  have start : Path.isAbsolute (q ++ Path.slash :: rest) = Path.isAbsolute q := by
    obtain ⟨b, q, rfl⟩ := List.exists_cons_of_ne_nil filled
    rfl
  refine ⟨min k (Path.components q).length, ?_⟩
  rw [start, Path.components_append, ← List.take_take, List.take_left]

theorem onWay_ancestor {p q : Bytes} (ancestor : Ancestor p q) (on : OnWay fs q l) : OnWay fs p l := by
  induction ancestor with
  | self p => exact on
  | above above_ _ ih => exact onWay_above above_ (ih on)

/-- Only places on the way are made. -/
theorem makeDirectories_onWay (mode fuel : Nat) (p : Bytes) (fs : Files) (l : Location) :
    (makeDirectories mode fuel p fs).1.entry l = fs.entry l ∨ OnWay fs p l := by
  let R (fs fs' : Files) : Prop := fs'.working = fs.working ∧ ∀ l, fs'.entry l = fs.entry l ∨ OnWay fs p l
  have refl : ∀ fs, R fs fs := fun fs => ⟨rfl, fun _ => .inl rfl⟩
  have trans : ∀ {fs fs' fs''}, R fs fs' → R fs' fs'' → R fs fs'' := by
    rintro fs fs' fs'' ⟨same, first⟩ ⟨same', second⟩
    refine ⟨same'.trans same, fun l => ?_⟩
    rcases second l with unchanged | on
    · rw [unchanged]
      exact first l
    · rw [OnWay, same] at on
      exact .inr on
  have step : ∀ q, Ancestor p q → ∀ fs fs', makeDirectory fs q mode = .ok fs' → R fs fs' := by
    intro q ancestor fs fs' made
    obtain ⟨place, located, _, rfl⟩ := makeDirectory_eq_ok made
    refine ⟨rfl, fun l => ?_⟩
    by_cases here : l = place
    · right
      apply onWay_ancestor ancestor
      refine ⟨(Path.components q).length, ?_⟩
      rw [List.take_length, here]
      exact locate_eq located
    · exact .inl (if_neg here)
  exact (makeDirectories_steps refl trans mode fuel step fs).2 l

/-! Trees. -/

/-- Every entry stands in a directory, and the program runs in one. -/
structure IsTree (fs : Files) : Prop where
  parent : ∀ l name, fs.entry (l ++ [name]) ≠ none → fs.isDirectory l = .ok ()
  working : fs.isDirectory fs.working = .ok ()

theorem entry_of_isDirectory (directory : fs.isDirectory l = .ok ()) : fs.entry l ≠ none := by
  intro none
  rw [isDirectory, none] at directory
  cases directory

namespace IsTree

variable (tree : fs.IsTree)

include tree

theorem above {more : List Bytes} (below : more ≠ []) (found : fs.entry (l ++ more) ≠ none) : fs.isDirectory l = .ok () := by
  induction more generalizing l with
  | nil => exact absurd rfl below
  | cons name more ih =>
    rw [List.append_cons] at found
    by_cases last : more = []
    · rw [last, List.append_nil] at found
      exact tree.parent l name found
    · exact tree.parent l name (entry_of_isDirectory (ih last found))

theorem directory_of_prefix (before : l <+: l') (directory : fs.isDirectory l' = .ok ()) : fs.isDirectory l = .ok () := by
  obtain ⟨more, rfl⟩ := before
  by_cases last : more = []
  · rw [last, List.append_nil] at directory
    exact directory
  · exact tree.above last (entry_of_isDirectory directory)

theorem root : fs.isDirectory [] = .ok () := tree.directory_of_prefix (List.nil_prefix ..) tree.working

theorem start (rooted : Bool) : fs.isDirectory (if rooted then [] else fs.working) = .ok () := by
  cases rooted with
  | true => exact tree.root
  | false => exact tree.working

/-- A name that is not proper leads from a directory to a directory. -/
theorem next_directory (directory : fs.isDirectory l = .ok ()) {name : Bytes}
    (special : name = Path.dot ∨ name = Path.dotDot) : fs.isDirectory (next l name) = .ok () := by
  rcases special with rfl | rfl
  · exact directory
  · exact tree.directory_of_prefix (List.dropLast_prefix l) directory

end IsTree

theorem walk_concat {names : List Bytes} {name : Bytes} (walked : fs.walk l (names ++ [name]) = .ok l') :
    ∃ place, fs.walk l names = .ok place ∧ fs.isDirectory place = .ok () ∧ l' = next place name := by
  induction names generalizing l with
  | nil =>
    obtain ⟨directory, _, last⟩ := walk_cons_eq_ok.mp walked
    exact ⟨l, rfl, directory, (Except.ok.inj last).symm⟩
  | cons first names ih =>
    obtain ⟨directory, short, later⟩ := walk_cons_eq_ok.mp walked
    obtain ⟨place, before, last⟩ := ih later
    exact ⟨place, walk_cons_eq_ok.mpr ⟨directory, short, before⟩, last⟩

/-- A walk ends at a directory, or at a proper name in one. -/
theorem IsTree.walk_ends (tree : fs.IsTree) (start : fs.isDirectory l = .ok ()) {names : List Bytes}
    (isName : ∀ name ∈ names, Path.IsName name) (walked : fs.walk l names = .ok l') :
    fs.isDirectory l' = .ok () ∨ ∃ place name, l' = place ++ [name] ∧ fs.isDirectory place = .ok () := by
  rcases List.eq_nil_or_concat names with rfl | ⟨before, name, rfl⟩
  · rw [← Except.ok.inj walked]
    exact .inl start
  · rw [List.concat_eq_append] at walked isName
    obtain ⟨place, _, directory, rfl⟩ := walk_concat walked
    by_cases special : name = Path.dot ∨ name = Path.dotDot
    · exact .inl (tree.next_directory directory special)
    · rw [not_or] at special
      have proper : Path.Proper name := ⟨isName name (by simp), special.1, special.2⟩
      rw [Path.next_proper proper]
      exact .inr ⟨place, name, rfl, directory⟩

theorem isName_names {p name : Bytes} (found : name ∈ names p) : Path.IsName name := by
  rcases List.mem_append.mp found with component | last
  · exact Path.isName_of_component component
  · split at last
    · rw [List.mem_singleton.mp last]
      exact ⟨by decide, by decide⟩
    · cases last

theorem makeDirectory_isTree {p : Bytes} {mode : Nat} (made : fs.makeDirectory p mode = .ok fs') (tree : fs.IsTree) :
    fs'.IsTree := by
  obtain ⟨place, located, free, rfl⟩ := makeDirectory_eq_ok made
  have kept : ∀ {l}, fs.isDirectory l = .ok () → (fs.put place (.directory mode)).isDirectory l = .ok () := by
    intro l directory
    have other : l ≠ place := by
      rintro rfl
      exact entry_of_isDirectory directory free
    have same : (fs.put place (.directory mode)).entry l = fs.entry l := if_neg other
    rw [isDirectory, same]
    exact directory
  refine ⟨fun l name found => ?_, kept tree.working⟩
  by_cases here : l ++ [name] = place
  · have walked := (locate_eq_ok.mp located).2
    rcases tree.walk_ends (tree.start _) (fun _ => isName_names) walked with directory | ⟨above, last, split, directory⟩
    · exact absurd free (entry_of_isDirectory directory)
    · rw [split] at here
      rw [(List.append_inj' here rfl).1]
      exact kept directory
  · have same : (fs.put place (.directory mode)).entry (l ++ [name]) = fs.entry (l ++ [name]) := if_neg here
    rw [same] at found
    exact kept (tree.parent l name found)

theorem makeDirectories_isTree (mode fuel : Nat) (p : Bytes) (tree : fs.IsTree) :
    (makeDirectories mode fuel p fs).1.IsTree :=
  makeDirectories_steps (R := fun fs fs' => fs.IsTree → fs'.IsTree) (fun _ same => same)
    (fun first second tree => second (first tree)) mode fuel (fun _ _ _ _ made => makeDirectory_isTree made) fs tree

/-! Missing files. -/

theorem replicate_back (k : Nat) (l : Location) : (List.replicate k Path.dotDot).foldl next l <+: l := by
  induction k generalizing l with
  | zero => exact List.prefix_refl l
  | succ k ih => exact (ih l.dropLast).trans (List.dropLast_prefix l)

/-- On the way to where a clean path leads, places are above that one, unless they are above the working directory. -/
theorem IsTree.onWay_clean (tree : fs.IsTree) {u : Bytes} (on : OnWay fs (Path.clean u) l) :
    fs.isDirectory l = .ok () ∨ l <+: fs.location (Path.clean u) := by
  obtain ⟨k, rfl⟩ := on
  unfold location
  cases rooted : Path.isAbsolute u with
  | true =>
    right
    have proper := (Path.components_clean rooted).2
    rw [Path.foldl_next_proper proper, Path.foldl_next_proper fun name found => proper name (List.mem_of_mem_take found)]
    exact List.prefix_append_right_inj _ |>.mpr (List.take_prefix k _)
  | false =>
    obtain ⟨unrooted, done, ⟨names, m, rfl, proper⟩, shape, _⟩ := Path.clean_relative rooted
    rw [unrooted, if_neg Bool.false_ne_true]
    rcases shape with split | ⟨_, single⟩
    · rw [split, List.reverse_append, List.reverse_replicate, List.foldl_append]
      rw [List.take_append, List.foldl_append, List.length_replicate, List.take_replicate]
      by_cases back : k ≤ m
      · -- Only steps back: a place above the working directory.
        left
        rw [Nat.min_eq_left back, Nat.sub_eq_zero_of_le back]
        exact tree.directory_of_prefix (replicate_back k fs.working) tree.working
      · right
        have named : ∀ name ∈ names.reverse, Path.Proper name := fun name found => proper name (List.mem_reverse.mp found)
        rw [Nat.min_eq_right (Nat.le_of_not_le back), Path.foldl_next_proper named,
          Path.foldl_next_proper fun name found => named name (List.mem_of_mem_take found)]
        exact List.prefix_append_right_inj _ |>.mpr (List.take_prefix _ _)
    · left
      have stays : ((Path.components (Path.clean u)).take k).foldl next fs.working = fs.working := by
        rw [single]
        cases k with
        | zero => rfl
        | succ k =>
          rw [List.take_succ_cons, List.take_nil]
          rfl
      rw [stays]
      exact tree.working

theorem walk_grown (grows : fs.Grows fs') {names : List Bytes} (walked : fs'.walk l names = .ok l') :
    fs.walk l names = .ok l' ∨ ∃ place, fs.entry place = none ∧ fs'.isDirectory place = .ok () := by
  induction names generalizing l with
  | nil => exact .inl walked
  | cons name names ih =>
    obtain ⟨directory, short, later⟩ := walk_cons_eq_ok.mp walked
    rcases grows.entry l with same | ⟨free, _⟩
    · rw [isDirectory, same] at directory
      rcases ih later with before | made
      · exact .inl (walk_cons_eq_ok.mpr ⟨directory, short, before⟩)
      · exact .inr made
    · exact .inr ⟨l, free, directory⟩

/-- The names of a path that leads to no directory end with a proper one, in the directory above. -/
theorem IsTree.names_divided (tree : fs.IsTree) {p : Bytes} (located : fs.locate p = .ok l)
    (other : fs.isDirectory l ≠ .ok ()) : ∃ name, l = fs.location (Path.parent p) ++ [name] := by
  obtain ⟨⟨filled, _⟩, walked⟩ := locate_eq_ok.mp located
  obtain ⟨u, name, rfl, free, parent, divided⟩ := Path.parent_split p
  by_cases none : name = []
  · -- A slash at the end asks for a directory.
    subst none
    rw [List.append_nil] at filled walked
    obtain ⟨v, rfl⟩ := divided.resolve_left filled
    have ends : names (v ++ [Path.slash]) = Path.components (v ++ [Path.slash]) ++ [Path.dot] := by simp [names]
    rw [ends] at walked
    obtain ⟨place, _, directory, rfl⟩ := walk_concat walked
    exact absurd directory other
  · have isName : Path.IsName name := ⟨none, free⟩
    have ends : names (u ++ name) = Path.components u ++ [name] := by
      have last : (u ++ name).getLast? ≠ some Path.slash := by
        rw [List.getLast?_append, List.getLast?_eq_some_getLast none]
        intro found
        apply free
        rw [← Option.some.inj found]
        exact List.getLast_mem none
      rw [names, Path.components_divided divided, Path.components_name isName, beq_eq_false_iff_ne.mpr last]
      exact List.append_nil _
    rw [ends, Path.isAbsolute_divided divided free] at walked
    obtain ⟨place, before, directory, rfl⟩ := walk_concat walked
    have proper : Path.Proper name := by
      refine ⟨isName, ?_, ?_⟩
      · exact fun same => other (tree.next_directory directory (.inl same))
      · exact fun same => other (tree.next_directory directory (.inr same))
    refine ⟨name, ?_⟩
    rw [Path.next_proper proper, parent, location_clean, walk_eq before]
    rfl

/-- A file was not there if it was not found before the directories above it were made. -/
theorem IsTree.missing (tree : fs.IsTree) {mode fuel : Nat} {p : Bytes} (missing : fs.mayExist p = false)
    (located : (makeDirectories mode fuel (Path.parent p) fs).1.locate p = .ok l)
    (other : (makeDirectories mode fuel (Path.parent p) fs).1.isDirectory l ≠ .ok ()) : fs.entry l = none := by
  have grows := makeDirectories_grows mode fuel (Path.parent p) fs
  have onWay := makeDirectories_onWay mode fuel (Path.parent p) fs
  have grown := makeDirectories_isTree mode fuel (Path.parent p) tree
  generalize (makeDirectories mode fuel (Path.parent p) fs).1 = made at *
  obtain ⟨name, rfl⟩ := grown.names_divided located other
  have same : made.location (Path.parent p) = fs.location (Path.parent p) := by rw [location, grows.working]; rfl
  rw [same] at located ⊢
  obtain ⟨usable, walked⟩ := locate_eq_ok.mp located
  rw [grows.working] at walked
  cases there : fs.entry (fs.location (Path.parent p) ++ [name]) with
  | none => rfl
  | some e =>
    rcases walk_grown grows walked with before | ⟨place, free, directory⟩
    · rw [mayExist, stat_eq_ok.mpr ⟨_, locate_eq_ok.mpr ⟨usable, before⟩, there⟩] at missing
      cases missing
    · -- A place that was made is above the file, and so it was a directory.
      have was : fs.isDirectory place = .ok () := by
        rcases onWay place with unchanged | on
        · rw [isDirectory, unchanged, free] at directory
          cases directory
        · rcases tree.onWay_clean on with already | ⟨more, leads⟩
          · exact already
          · rw [Path.parent, ← leads, List.append_assoc] at there
            have found : fs.entry (place ++ (more ++ [name])) ≠ none := by
              rw [there]
              exact Option.some_ne_none e
            exact tree.above (by simp) found
      exact absurd free (entry_of_isDirectory was)

end Files
end BoundedRecords
