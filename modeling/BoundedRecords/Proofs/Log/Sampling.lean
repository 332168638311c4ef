import BoundedRecords.Log.Logger

/-! What a logger writes. On the console every entry that is loud enough becomes a line. The structured format thins
out what repeats: of the entries of one level and message that come within a second the first hundred are written, and
then every hundredth. So it is complete exactly as long as nothing comes more than a hundred times. -/
namespace BoundedRecords

/-- Entries are of one kind if they have the same level and message, whatever their fields say. -/
def LogEntry.isOf (level : Level) (message : Bytes) (e : LogEntry) : Bool := e.level == level && e.message == message

theorem LogEntry.isOf_iff {level : Level} {message : Bytes} {e : LogEntry} :
    e.isOf level message = true ↔ e.level = level ∧ e.message = message := by
  simp only [isOf, Bool.and_eq_true, beq_iff_eq]

namespace Logger

/-! One kind alone. -/

/-- What is kept of the entries of one kind that follow `before` others of it. -/
def thinned (before : Nat) (entries : List LogEntry) : List LogEntry :=
  ((entries.zipIdx (before + 1)).filter fun x => isSampled x.2).map Prod.fst

theorem thinned_cons (before : Nat) (e : LogEntry) (entries : List LogEntry) :
    thinned before (e :: entries) =
      if isSampled (before + 1) then e :: thinned (before + 1) entries else thinned (before + 1) entries := by
  simp only [thinned, List.zipIdx_cons, List.filter_cons]
  split <;> rfl

/-- How many of `n` entries of one kind are kept. -/
def keptOf (n : Nat) : Nat := if n ≤ sampleSize then n else sampleSize - 1 + n / sampleSize

theorem keptOf_eq (n : Nat) : keptOf n = if n ≤ 100 then n else 99 + n / 100 := rfl

theorem keptOf_succ (n : Nat) : keptOf (n + 1) = keptOf n + if isSampled (n + 1) then 1 else 0 := by
  have sampled : isSampled (n + 1) = true ↔ n + 1 ≤ 100 ∨ (n + 1) % 100 = 0 := by
    simp [isSampled, sampleSize]
  simp only [keptOf_eq, sampled]
  split <;> split <;> split <;> omega

theorem keptOf_eq_self_iff {n : Nat} : keptOf n = n ↔ n ≤ sampleSize := by
  have size : sampleSize = 100 := rfl
  rw [keptOf_eq]
  split <;> omega

theorem length_thinned (before : Nat) (entries : List LogEntry) :
    keptOf before + (thinned before entries).length = keptOf (before + entries.length) := by
  induction entries generalizing before with
  | nil => rfl
  | cons e entries ih =>
    have later := ih (before + 1)
    rw [keptOf_succ] at later
    rw [thinned_cons, List.length_cons, Nat.add_comm entries.length, ← Nat.add_assoc, ← later]
    split
    · rw [List.length_cons]
      omega
    · omega

theorem thinned_sublist (before : Nat) (entries : List LogEntry) : (thinned before entries).Sublist entries := by
  have kept : (thinned before entries).Sublist ((entries.zipIdx (before + 1)).map Prod.fst) :=
    List.filter_sublist.map Prod.fst
  rwa [List.zipIdx_map_fst] at kept

theorem length_thinned_zero (entries : List LogEntry) : (thinned 0 entries).length = keptOf entries.length := by
  have length := length_thinned 0 entries
  rwa [keptOf_eq 0, if_pos (Nat.zero_le _), Nat.zero_add, Nat.zero_add] at length

theorem thinned_eq_self_iff {entries : List LogEntry} : thinned 0 entries = entries ↔ entries.length ≤ sampleSize := by
  rw [← keptOf_eq_self_iff, ← length_thinned_zero]
  exact ⟨congrArg List.length, (thinned_sublist 0 entries).eq_of_length⟩

/-! All kinds together. -/

theorem sampleAfter_cons (seen : List LogEntry) (e : LogEntry) (entries : List LogEntry) :
    sampleAfter seen (e :: entries) =
      if isSampled (seen.countP (LogEntry.isOf e.level e.message) + 1) then e :: sampleAfter (e :: seen) entries
      else sampleAfter (e :: seen) entries := rfl

/-- Each kind is thinned out as if it came alone. -/
theorem sampleAfter_kind (level : Level) (message : Bytes) (seen entries : List LogEntry) :
    (sampleAfter seen entries).filter (LogEntry.isOf level message) =
      thinned (seen.countP (LogEntry.isOf level message)) (entries.filter (LogEntry.isOf level message)) := by
  induction entries generalizing seen with
  | nil => rfl
  | cons e entries ih =>
    rw [sampleAfter_cons]
    by_cases kind : e.isOf level message = true
    -- Both sides count what was seen of this kind; an entry of another kind changes neither count.
    · obtain ⟨rfl, rfl⟩ := LogEntry.isOf_iff.mp kind
      have counted := ih (e :: seen)
      rw [List.countP_cons_of_pos kind] at counted
      rw [List.filter_cons_of_pos kind, thinned_cons, ← counted]
      split
      · rw [List.filter_cons_of_pos kind]
      · rfl
    · have counted := ih (e :: seen)
      rw [List.countP_cons_of_neg kind] at counted
      rw [List.filter_cons_of_neg kind, ← counted]
      split
      · rw [List.filter_cons_of_neg kind]
      · rfl

theorem sampleAfter_sublist (seen entries : List LogEntry) : (sampleAfter seen entries).Sublist entries := by
  induction entries generalizing seen with
  | nil => exact List.Sublist.slnil
  | cons e entries ih =>
    rw [sampleAfter_cons]
    split
    · exact (ih (e :: seen)).cons_cons e
    · exact (ih (e :: seen)).cons e

/-- Nothing is thinned out of entries whose kinds stay within the sample. -/
theorem sampleAfter_eq_self {seen entries : List LogEntry}
    (few : ∀ level message, seen.countP (LogEntry.isOf level message) +
      entries.countP (LogEntry.isOf level message) ≤ sampleSize) :
    sampleAfter seen entries = entries := by
  induction entries generalizing seen with
  | nil => rfl
  | cons e entries ih =>
    have first := few e.level e.message
    rw [List.countP_cons_of_pos (LogEntry.isOf_iff.mpr ⟨rfl, rfl⟩)] at first
    have sampled : isSampled (seen.countP (LogEntry.isOf e.level e.message) + 1) = true := by
      simp only [isSampled, Bool.or_eq_true, decide_eq_true_eq]
      omega
    have later : sampleAfter (e :: seen) entries = entries := by
      apply ih
      intro level message
      have bound := few level message
      rw [List.countP_cons] at bound ⊢
      omega
    rw [sampleAfter_cons, if_pos sampled, later]

theorem sampleAfter_eq_self_iff (entries : List LogEntry) :
    sampleAfter [] entries = entries ↔ ∀ level message, entries.countP (LogEntry.isOf level message) ≤ sampleSize := by
  constructor
  · intro same level message
    have kind := sampleAfter_kind level message [] entries
    rw [same, List.countP_nil] at kind
    rw [List.countP_eq_length_filter]
    exact thinned_eq_self_iff.mp kind.symm
  · intro few
    apply sampleAfter_eq_self
    intro level message
    rw [List.countP_nil, Nat.zero_add]
    exact few level message

/-! What a logger makes of a second. -/

/-- The entries that are loud enough for a logger. -/
def loud (g : Logger) (entries : List LogEntry) : List LogEntry := entries.filter fun e => g.enabled e.level

/-- Every entry that is loud enough becomes a line, once and in order, and nothing else does. -/
def Complete (g : Logger) (entries : List LogEntry) : Prop :=
  (g.written entries).map (LogEntry.line g.format) = (g.loud entries).map (LogEntry.line g.format)

theorem loud_kind (g : Logger) (level : Level) (message : Bytes) (entries : List LogEntry) :
    (g.loud entries).filter (LogEntry.isOf level message) =
      if g.enabled level then entries.filter (LogEntry.isOf level message) else [] := by
  rw [loud, List.filter_filter]
  split
  · rename_i enabled
    apply List.filter_congr
    intro e _
    cases kind : e.isOf level message with
    | false => rfl
    | true => rw [(LogEntry.isOf_iff.mp kind).1, enabled, Bool.and_true]
  · rename_i quiet
    rw [List.filter_eq_nil_iff]
    intro e _ both
    obtain ⟨kind, enabled⟩ := Bool.and_eq_true_iff.mp both
    rw [(LogEntry.isOf_iff.mp kind).1] at enabled
    exact quiet enabled

theorem written_sublist (g : Logger) (entries : List LogEntry) : (g.written entries).Sublist (g.loud entries) := by
  unfold written
  split
  · exact sampleAfter_sublist [] (g.loud entries)
  · exact List.Sublist.refl _

theorem complete_iff_written {g : Logger} {entries : List LogEntry} :
    g.Complete entries ↔ g.written entries = g.loud entries := by
  constructor
  · intro complete
    apply (g.written_sublist entries).eq_of_length
    have lengths := congrArg List.length complete
    rwa [List.length_map, List.length_map] at lengths
  · intro same
    rw [Complete, same]

/-- A logger is complete on the console, and otherwise as long as no kind that is loud enough outgrows the sample. -/
theorem complete_iff {g : Logger} {entries : List LogEntry} :
    g.Complete entries ↔ g.format = .console ∨ ∀ level message, g.enabled level = true →
      entries.countP (LogEntry.isOf level message) ≤ sampleSize := by
  have kinds : (∀ level message, (g.loud entries).countP (LogEntry.isOf level message) ≤ sampleSize) ↔
      ∀ level message, g.enabled level = true → entries.countP (LogEntry.isOf level message) ≤ sampleSize := by
    refine forall_congr' fun level => forall_congr' fun message => ?_
    rw [List.countP_eq_length_filter, loud_kind, List.countP_eq_length_filter]
    cases enabled : g.enabled level with
    | true => simp
    | false => simp
  rw [complete_iff_written, ← kinds, ← sampleAfter_eq_self_iff]
  cases format : g.format with
  | json => simp [written, format, loud]
  | console => simp [written, format, loud]

/-- What is written of one kind. -/
theorem written_kind (g : Logger) (level : Level) (message : Bytes) (entries : List LogEntry) :
    (g.written entries).filter (LogEntry.isOf level message) =
      if g.enabled level then
        match g.format with
        | .json => thinned 0 (entries.filter (LogEntry.isOf level message))
        | .console => entries.filter (LogEntry.isOf level message)
      else [] := by
  have kind := loud_kind g level message entries
  cases format : g.format with
  | json =>
    have sampled := sampleAfter_kind level message [] (g.loud entries)
    have thin : g.written entries = sampleAfter [] (g.loud entries) := by simp only [written, format, loud]
    rw [thin, sampled, kind]
    split <;> rfl
  | console =>
    have whole : g.written entries = g.loud entries := by simp only [written, format, loud]
    rw [whole, kind]

/-! Loggers from two words. -/

theorem formatOf_eq_ok {word : Bytes} {f : LogFormat} (read : formatOf word = .ok f) :
    f = .console ↔ word = utf8 "console" := by
  unfold formatOf at read
  split at read
  · rename_i console
    cases read
    exact ⟨fun _ => eq_of_beq console, fun _ => rfl⟩
  · rename_i other
    split at read
    · cases read
      exact ⟨nofun, fun console => absurd (beq_iff_eq.mpr console) other⟩
    · cases read

theorem new_eq_ok {level format : Bytes} {verbose : Bool} {g : Logger} (made : new level format verbose = .ok g) :
    (g.format = .console ↔ format = utf8 "console") ∧
      ∃ l, Level.parse level = .ok l ∧ g.level = if verbose then .debug else l := by
  unfold new at made
  cases read : formatOf format with
  | error e => simp [read, bind, Except.bind] at made
  | ok f =>
    cases parsed : Level.parse level with
    | error u => simp [read, parsed, bind, Except.bind, throw, throwThe, MonadExceptOf.throw] at made
    | ok l =>
      simp only [read, parsed, bind, Except.bind, pure, Except.pure, Except.ok.injEq] at made
      subst made
      exact ⟨formatOf_eq_ok read, l, rfl, rfl⟩

end Logger
end BoundedRecords
