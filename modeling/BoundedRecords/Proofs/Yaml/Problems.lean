import BoundedRecords.Yaml.Decode
import Mathlib.Data.List.Forall2

/-! Decoding without problems. Decoding only ever adds to the problems met before it, so that a document without problems
is one of whose parts each was decoded without. -/
namespace BoundedRecords.Yaml

/-- What the computation finds, and the problems it adds, do not depend on those met before it. -/
def Appends {α : Type} (x : Decode α) : Prop :=
  ∃ r : Option (α × List Problem), ∀ ps, x.run ps = r.map fun p => (p.1, ps ++ p.2)

section

variable {α β : Type}

theorem appends_pure (a : α) : Appends (pure a) := by
  refine ⟨some (a, []), fun ps => ?_⟩
  rw [Option.map_some, List.append_nil]
  rfl

theorem appends_fatal : Appends (fatal : Decode α) := ⟨none, fun _ => rfl⟩

theorem appends_modify (qs : List Problem) : Appends (modify (· ++ qs) : Decode Unit) := ⟨some ((), qs), fun _ => rfl⟩

theorem appends_note (p : Problem) : Appends (note p) := appends_modify [p]

theorem Appends.bind {x : Decode α} {f : α → Decode β} (first : Appends x) (next : ∀ a, Appends (f a)) :
    Appends (x >>= f) := by
  obtain ⟨r, ran⟩ := first
  cases r with
  | none =>
    refine ⟨none, fun ps => ?_⟩
    rw [StateT.run_bind, ran]
    rfl
  | some found =>
    obtain ⟨a, qs⟩ := found
    obtain ⟨r, later⟩ := next a
    refine ⟨r.map fun p => (p.1, qs ++ p.2), fun ps => ?_⟩
    rw [StateT.run_bind, ran]
    change (f a).run (ps ++ qs) = _
    rw [later, Option.map_map]
    simp only [Function.comp_def, List.append_assoc]

theorem Appends.foldlM {f : β → α → Decode β} (each : ∀ b a, Appends (f b a)) (xs : List α) (b : β) :
    Appends (xs.foldlM f b) := by
  induction xs generalizing b with
  | nil => exact appends_pure b
  | cons a xs ih =>
    rw [List.foldlM_cons]
    exact (each b a).bind fun c => ih c

theorem Appends.mapM {f : α → Decode β} (each : ∀ a, Appends (f a)) (xs : List α) : Appends (xs.mapM f) := by
  induction xs with
  | nil => exact appends_pure []
  | cons a xs ih =>
    rw [List.mapM_cons]
    exact (each a).bind fun b => ih.bind fun bs => appends_pure (b :: bs)

theorem Appends.eq_pure_iff {x : Decode α} (appends : Appends x) (a : α) : x = pure a ↔ x.run [] = some (a, []) := by
  constructor
  · rintro rfl
    rfl
  · intro ran
    obtain ⟨r, runs⟩ := appends
    rw [runs, Option.map_eq_some_iff] at ran
    obtain ⟨⟨b, qs⟩, rfl, same⟩ := ran
    simp only [List.nil_append, Prod.mk.injEq] at same
    obtain ⟨rfl, rfl⟩ := same
    apply StateT.ext
    intro ps
    rw [runs, Option.map_some, List.append_nil]
    rfl

theorem pure_inj {a b : α} (same : (pure a : Decode α) = pure b) : a = b := by
  have ran : (pure a : Decode α).run [] = (pure b : Decode α).run [] := congrArg (StateT.run · []) same
  exact congrArg Prod.fst (Option.some.inj ran)

/-- A computation in two steps meets no problem exactly if neither step does. -/
theorem Appends.bind_eq_pure_iff {x : Decode α} {f : α → Decode β} (first : Appends x) (next : ∀ a, Appends (f a)) (b : β) :
    x >>= f = pure b ↔ ∃ a, x = pure a ∧ f a = pure b := by
  constructor
  · intro both
    obtain ⟨r, runs⟩ := first
    have ran : (x >>= f).run [] = some (b, []) := by
      rw [both]
      rfl
    rw [StateT.run_bind, runs] at ran
    cases r with
    | none => cases ran
    | some found =>
      obtain ⟨a, qs⟩ := found
      obtain ⟨r, later⟩ := next a
      change (f a).run ([] ++ qs) = _ at ran
      rw [later, Option.map_eq_some_iff] at ran
      obtain ⟨⟨c, qs'⟩, rfl, same⟩ := ran
      simp only [List.nil_append, Prod.mk.injEq, List.append_eq_nil_iff] at same
      obtain ⟨rfl, rfl, rfl⟩ := same
      refine ⟨a, ?_, ?_⟩
      · exact (Appends.eq_pure_iff ⟨_, runs⟩ a).mpr (runs [])
      · exact (Appends.eq_pure_iff ⟨_, later⟩ c).mpr (later [])
  · rintro ⟨a, rfl, second⟩
    rw [pure_bind, second]

theorem mapM_eq_pure_iff {f : α → Decode β} (each : ∀ a, Appends (f a)) (xs : List α) (ys : List β) :
    xs.mapM f = pure ys ↔ List.Forall₂ (fun a b => f a = pure b) xs ys := by
  induction xs generalizing ys with
  | nil =>
    rw [List.mapM_nil]
    constructor
    · intro same
      rw [← pure_inj same]
      exact .nil
    · rintro ⟨⟩
      rfl
  | cons a xs ih =>
    have rest := fun b => (Appends.mapM each xs).bind fun bs => appends_pure (b :: bs)
    rw [List.mapM_cons, (each a).bind_eq_pure_iff rest]
    constructor
    · rintro ⟨b, first, later⟩
      obtain ⟨bs, others, same⟩ := ((Appends.mapM each xs).bind_eq_pure_iff (fun bs => appends_pure (b :: bs)) ys).mp later
      rw [← pure_inj same]
      exact .cons first ((ih bs).mp others)
    · rintro (_ | ⟨first, later⟩)
      refine ⟨_, first, ?_⟩
      rw [(ih _).mpr later, pure_bind]

end

/-! Every step of decoding adds to the problems at most. -/

variable (d : Document)

theorem appends_mismatchCollection (target : Bytes) (n : Node) : Appends (mismatchCollection target n) := by
  unfold mismatchCollection
  split
  · exact appends_note _
  · split
    · exact appends_note _
    · exact appends_modify _
  · exact appends_pure ()

theorem appends_decodeScalar (target : Bytes) (n : Node) : Appends (decodeScalar d target n) := by
  unfold decodeScalar
  split
  · exact appends_fatal
  · split
    · exact appends_fatal
    · exact appends_pure _
  · exact (appends_mismatchCollection target _).bind fun _ => appends_pure none

theorem appends_decodeText (n : Node) : Appends (decodeText d n) := by
  apply (appends_decodeScalar d textTarget n).bind
  intro found
  split
  · exact appends_pure _
  · exact appends_pure _
  · exact appends_pure _
  · exact appends_pure _

theorem appends_decodeInt64 (target : Bytes) (n : Node) : Appends (decodeInt64 d target n) := by
  apply (appends_decodeScalar d target n).bind
  intro found
  split
  · exact appends_pure _
  · exact appends_pure _
  · split
    · exact appends_pure _
    · exact (appends_note _).bind fun _ => appends_pure none

section

variable {S : Type} (target : Bytes) {fields : List (RecordField S)}

theorem appends_fillEntry (each : ∀ g ∈ fields, ∀ v c, Appends (g.decode v c)) (f : Filling S) (entry : Node × Node) :
    Appends (fillEntry d target fields f entry) := by
  obtain ⟨k, v⟩ := entry
  simp only [fillEntry]
  split
  · exact appends_pure _
  · apply (appends_decodeText d k).bind
    intro name
    split
    · exact appends_pure _
    · split
      · exact appends_pure _
      · split
        · exact appends_pure _
        · rename_i field found
          split
          · exact (appends_note _).bind fun _ => appends_pure _
          · exact (each field (List.mem_of_find?_eq_some found) _ _).bind fun _ => appends_pure _

theorem appends_fillRecord (each : ∀ g ∈ fields, ∀ v c, Appends (g.decode v c)) (fuel : Nat) (merged : Option (List Bytes))
    (n : Node) (c : S) : Appends (fillRecord d target fields fuel merged n c) := by
  induction fuel generalizing merged n c with
  | zero => exact appends_fatal
  | succ fuel ih =>
    rw [fillRecord]
    split
    · exact appends_fatal
    · split
      · exact (appends_modify _).bind fun _ => appends_pure _
      · apply (Appends.foldlM (appends_fillEntry d target each) _ _).bind
        intro f
        split
        · exact appends_pure _
        · split
          · exact appends_fatal
          · -- What is merged is filled in turn, with less fuel.
            refine (Appends.foldlM ?_ _ _).bind fun _ => appends_pure _
            intro taken source
            exact (ih _ source _).bind fun _ => appends_pure _
    · apply (appends_decodeScalar d target _).bind
      intro found
      split
      · exact appends_pure _
      · exact appends_pure _
      · exact (appends_note _).bind fun _ => appends_pure _

theorem appends_decodeRecord (each : ∀ g ∈ fields, ∀ v c, Appends (g.decode v c)) (n : Node) (c : S) :
    Appends (decodeRecord d target fields n c) :=
  (appends_fillRecord d target each _ none n c).bind fun _ => appends_pure _

end

/-- A document is decoded without problems, or not at all. -/
theorem decodeFile_cases {α : Type} {decode : Document → Node → Decode α} (absent : α) {s : Bytes}
    (document : Document.read s = some (some d)) (appends : Appends (decode d d.root)) :
    (∃ e, decodeFile decode absent s = .error e) ∨
      ∃ v, decode d d.root = pure v ∧ decodeFile decode absent s = .ok v := by
  simp only [decodeFile, document]
  split
  · exact .inl ⟨_, rfl⟩
  · rename_i v ran
    exact .inr ⟨v, (appends.eq_pure_iff v).mpr ran, rfl⟩
  · exact .inl ⟨_, rfl⟩

end BoundedRecords.Yaml
