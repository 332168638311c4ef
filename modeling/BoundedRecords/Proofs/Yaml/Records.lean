import BoundedRecords.Proofs.Yaml.Decoding
import BoundedRecords.Proofs.Yaml.Problems

/-! What a mapping says. A mapping that is decoded without problems gives a record; where its keys are plain texts, each
field of the record comes from the entry with its key, and from nothing else. -/
namespace BoundedRecords.Yaml

/-- The keys are different texts. -/
def Keyed (es : List (Node × Node)) : Prop :=
  (∀ e ∈ es, ∃ name, Names e.1 name) ∧ (es.map fun e => e.1.textOf).Nodup

/-- The keys are read as different texts. -/
def Distinct (es : List (Node × Node)) : Prop :=
  (∀ e ∈ es, ∃ name, Reads e.1 name) ∧ (es.map fun e => e.1.textOf).Nodup

theorem Keyed.distinct {es : List (Node × Node)} (keyed : Keyed es) : Distinct es := by
  refine ⟨fun e found => ?_, keyed.2⟩
  obtain ⟨name, names⟩ := keyed.1 e found
  exact ⟨name, names.reads⟩

/-- The value under a key. -/
def valueUnder (key : Bytes) (es : List (Node × Node)) : Option Node :=
  (es.find? fun e => e.1.textOf == key).map Prod.snd

variable {S : Type} {fields : List (RecordField S)} {seen : List Bytes} {es : List (Node × Node)} {c c' : S}

theorem fresh_behind {name : Bytes} (first : name ∉ es.map fun e => e.1.textOf) (fresh : ∀ e ∈ es, e.1.textOf ∉ seen) :
    ∀ e ∈ es, e.1.textOf ∉ name :: seen := by
  intro e found
  rw [List.mem_cons, not_or]
  exact ⟨fun same => first (List.mem_map.mpr ⟨e, found, same⟩), fresh e found⟩

section

variable (d : Document) (target : Bytes) {done : List Bytes}

theorem fills_of_folded (each : ∀ g ∈ fields, ∀ v c, Appends (g.decode v c)) (keys : ∀ e ∈ es, ∃ name, Reads e.1 name)
    (distinct : (es.map fun e => e.1.textOf).Nodup) (fresh : ∀ e ∈ es, e.1.textOf ∉ seen) (subset : done ⊆ seen)
    {f : Filling S} (folded : es.foldlM (fillEntry d target fields) ⟨c, none, done, none⟩ = pure f) :
    Fills fields seen es c f.value ∧ f.merge = none := by
  induction es generalizing seen done c with
  | nil =>
    rw [List.foldlM_nil] at folded
    rw [← pure_inj folded]
    exact ⟨.nil, rfl⟩
  | cons e es ih =>
    obtain ⟨k, v⟩ := e
    rw [List.forall_mem_cons] at keys fresh
    rw [List.map_cons, List.nodup_cons] at distinct
    obtain ⟨name, reads⟩ := keys.1
    have same := reads.text
    simp only [same] at distinct fresh
    have later := fresh_behind distinct.1 fresh.2
    have steps := appends_fillEntry d target each
    rw [List.foldlM_cons, fillEntry_reads d target reads (fun inDone => fresh.1 (subset inDone))] at folded
    cases known : fields.find? (·.key == name) with
    | none =>
      rw [known] at folded
      simp only [pure_bind] at folded
      obtain ⟨rest, merge⟩ := ih keys.2 distinct.2 later (List.subset_cons_of_subset name subset) folded
      exact ⟨.skip reads known fresh.1 rest, merge⟩
    | some field =>
      rw [known] at folded
      simp only [bind_assoc, pure_bind] at folded
      have decodes := each field (List.mem_of_find?_eq_some known) v c
      rw [decodes.bind_eq_pure_iff fun c' => Appends.foldlM steps es _] at folded
      obtain ⟨c', decoded, folded⟩ := folded
      obtain ⟨rest, merge⟩ := ih keys.2 distinct.2 later (List.cons_subset_cons name subset) folded
      exact ⟨.cons reads known fresh.1 decoded rest, merge⟩

theorem decodeRecord_mapping (each : ∀ g ∈ fields, ∀ v c, Appends (g.decode v c)) {n : Node} {line : Nat}
    {tag : Option Bytes} (follows : d.follow n = some (.mapping line tag es)) {r : Option S}
    (decoded : decodeRecord d target fields n c = pure r) : ∃ c', r = some c' ∧ (Distinct es → Fills fields [] es c c') := by
  have filling := appends_fillRecord d target each (d.size + 1) none n c
  rw [decodeRecord, filling.bind_eq_pure_iff fun _ => appends_pure _] at decoded
  obtain ⟨⟨found, taken, value⟩, filled, result⟩ := decoded
  have entries := Appends.foldlM (appends_fillEntry d target each) es
  have merging := fun keys source value => appends_fillRecord d target each d.size (some keys) source value
  simp only [fillRecord, follows] at filled
  split at filled
  · -- A key that comes twice is a problem.
    obtain ⟨_, noted, _⟩ := ((appends_modify _).bind_eq_pure_iff (fun _ => appends_pure _) _).mp filled
    cases congrArg (StateT.run · []) noted
  · rw [(entries _).bind_eq_pure_iff] at filled
    · obtain ⟨f, folded, merged⟩ := filled
      have keyed : Distinct es → Fills fields [] es c f.value ∧ f.merge = none := by
        intro keys
        have fresh : ∀ e ∈ es, e.1.textOf ∉ [] := fun _ _ => List.not_mem_nil
        exact fills_of_folded d target each keys.1 keys.2 fresh (List.Subset.refl []) folded
      split at merged
      · cases pure_inj merged
        exact ⟨f.value, (pure_inj result).symm, fun keys => (keyed keys).1⟩
      · rename_i m merge
        split at merged
        · cases congrArg (StateT.run · []) merged
        · rw [Appends.bind_eq_pure_iff (Appends.foldlM
            (fun _ source => (merging _ source _).bind fun _ => appends_pure _) _ _) fun _ => appends_pure _] at merged
          obtain ⟨_, _, whole⟩ := merged
          cases pure_inj whole
          refine ⟨_, (pure_inj result).symm, fun keys => ?_⟩
          rw [(keyed keys).2] at merge
          cases merge
    · intro f
      split
      · exact appends_pure _
      · split
        · exact appends_fatal
        · exact (Appends.foldlM (fun _ source => (merging _ source _).bind fun _ => appends_pure _) _ _).bind
            fun _ => appends_pure _

end

/-! Where a part of a record comes from. The part is read off by `part`, and only one field may change it. -/

/-- Of the fields that have entries here, only the one with this key changes the part. -/
def ChangedOnlyBy {α : Type} (fields : List (RecordField S)) (es : List (Node × Node)) (part : S → α) (key : Bytes) : Prop :=
  ∀ g ∈ fields, g.key ≠ key → ∀ e ∈ es, e.1.textOf = g.key → ∀ c c', g.decode e.2 c = pure c' → part c' = part c

section

variable {α : Type} (part : S → α) (key : Bytes)

theorem valueUnder_cons (k v : Node) (es : List (Node × Node)) :
    valueUnder key ((k, v) :: es) = if k.textOf = key then some v else valueUnder key es := by
  by_cases same : k.textOf = key
  · simp [valueUnder, same]
  · simp [valueUnder, same]

/-- A part that no field still to come changes stays as it is. -/
theorem Fills.kept (others : ∀ g ∈ fields, g.key ∉ seen → ∀ e ∈ es, e.1.textOf = g.key →
      ∀ c c', g.decode e.2 c = pure c' → part c' = part c)
    (fills : Fills fields seen es c c') : part c' = part c := by
  induction fills with
  | nil => rfl
  | @cons seen k name v rest field c c' c'' reads known fresh decoded _ ih =>
    have named : field.key = name := by simpa using List.find?_some known
    have first := others field (List.mem_of_find?_eq_some known) (named ▸ fresh) (k, v) List.mem_cons_self
      (reads.text.trans named.symm) c c' decoded
    rw [← first]
    apply ih
    intro g found later e inside
    exact others g found (fun met => later (List.mem_cons_of_mem name met)) e (List.mem_cons_of_mem _ inside)
  | @skip seen k name v rest c c' reads known fresh _ ih =>
    apply ih
    intro g found later e inside
    exact others g found (fun met => later (List.mem_cons_of_mem name met)) e (List.mem_cons_of_mem _ inside)

theorem Fills.under {field : RecordField S} (found : fields.find? (·.key == key) = some field)
    (others : ChangedOnlyBy fields es part key) (fills : Fills fields seen es c c') :
    (valueUnder key es = none → part c' = part c) ∧
      ∀ v, valueUnder key es = some v → ∃ c₁ c₂, part c₁ = part c ∧ field.decode v c₁ = pure c₂ ∧ part c' = part c₂ := by
  induction fills with
  | nil => exact ⟨fun _ => rfl, fun v none => (nomatch none)⟩
  | @cons seen k name v rest g c c' c'' reads known fresh decoded later ih =>
    have behind : ChangedOnlyBy fields rest part key :=
      fun g inside other e met => others g inside other e (List.mem_cons_of_mem _ met)
    rw [valueUnder_cons, reads.text]
    by_cases same : name = key
    · subst same
      rw [found] at known
      cases known
      rw [if_pos rfl]
      refine ⟨fun none => (nomatch none), ?_⟩
      rintro w ⟨⟩
      refine ⟨c, c', rfl, decoded, later.kept part ?_⟩
      intro g inside unmet
      exact behind g inside fun same => unmet (same ▸ List.mem_cons_self)
    · rw [if_neg same]
      have named : g.key = name := by simpa using List.find?_some known
      have first := others g (List.mem_of_find?_eq_some known) (named ▸ same) (k, v) List.mem_cons_self
        (reads.text.trans named.symm) c c' decoded
      rw [← first]
      exact ih behind
  | @skip seen k name v rest c c' reads known fresh later ih =>
    have same : name ≠ key := by
      rintro rfl
      rw [known] at found
      cases found
    rw [valueUnder_cons, reads.text, if_neg same]
    exact ih fun g inside other e met => others g inside other e (List.mem_cons_of_mem _ met)

theorem Fills.decoded {field : RecordField S} {key : Bytes} (found : fields.find? (·.key == key) = some field)
    (fills : Fills fields seen es c c') {v : Node} (there : valueUnder key es = some v) :
    ∃ c₁ c₂, field.decode v c₁ = pure c₂ := by
  have others : ChangedOnlyBy fields es (fun _ => ()) key := fun _ _ _ _ _ _ _ _ _ => rfl
  obtain ⟨c₁, c₂, _, decoded, _⟩ := (fills.under _ key found others).2 v there
  exact ⟨c₁, c₂, decoded⟩

end

/-! Values under keys. -/

theorem valueUnder_eq_none_iff {key : Bytes} : valueUnder key es = none ↔ ∀ e ∈ es, e.1.textOf ≠ key := by
  simp [valueUnder]

theorem valueUnder_eq_some_iff (distinct : (es.map fun e => e.1.textOf).Nodup) {key : Bytes} {v : Node} :
    valueUnder key es = some v ↔ ∃ e ∈ es, e.1.textOf = key ∧ e.2 = v := by
  induction es with
  | nil => simp [valueUnder]
  | cons e es ih =>
    obtain ⟨k, w⟩ := e
    rw [List.map_cons, List.nodup_cons] at distinct
    rw [valueUnder_cons]
    by_cases same : k.textOf = key
    · have nowhere : ∀ e ∈ es, e.1.textOf ≠ key := by
        rintro e found rfl
        exact distinct.1 (List.mem_map.mpr ⟨e, found, same.symm⟩)
      rw [if_pos same, Option.some.injEq]
      constructor
      · rintro rfl
        exact ⟨_, List.mem_cons_self, same, rfl⟩
      · rintro ⟨e, found, named, rfl⟩
        rcases List.mem_cons.mp found with rfl | later
        · rfl
        · exact absurd named (nowhere e later)
    · rw [if_neg same, ih distinct.2]
      constructor
      · rintro ⟨e, found, named⟩
        exact ⟨e, List.mem_cons_of_mem _ found, named⟩
      · rintro ⟨e, found, named, value⟩
        rcases List.mem_cons.mp found with rfl | later
        · exact absurd named same
        · exact ⟨e, later, named, value⟩

theorem valueUnder_perm {es' : List (Node × Node)} (perm : es.Perm es')
    (distinct : (es'.map fun e => e.1.textOf).Nodup) (key : Bytes) : valueUnder key es = valueUnder key es' := by
  have first : (es.map fun e => e.1.textOf).Nodup := (perm.map _).nodup_iff.mpr distinct
  ext v
  rw [valueUnder_eq_some_iff first, valueUnder_eq_some_iff distinct]
  simp only [perm.mem_iff]

/-- Entries with different keys fill a record if every field that has a value can take it over. -/
theorem fills_of_decodable (distinct : Distinct es)
    (each : ∀ g ∈ fields, ∀ v, valueUnder g.key es = some v → ∀ c, ∃ c', g.decode v c = pure c')
    (fresh : ∀ e ∈ es, e.1.textOf ∉ seen) (c : S) : ∃ c', Fills fields seen es c c' := by
  have decodes : ∀ e ∈ es, ∀ g ∈ fields, g.key = e.1.textOf → ∀ c, ∃ c', g.decode e.2 c = pure c' := by
    intro e found g field named
    exact each g field e.2 ((valueUnder_eq_some_iff distinct.2).mpr ⟨e, found, named.symm, rfl⟩)
  obtain ⟨reads, nodup⟩ := distinct
  clear each
  induction es generalizing seen c with
  | nil => exact ⟨c, .nil⟩
  | cons e es ih =>
    obtain ⟨k, v⟩ := e
    rw [List.forall_mem_cons] at reads fresh decodes
    rw [List.map_cons, List.nodup_cons] at nodup
    obtain ⟨name, key⟩ := reads.1
    obtain rfl := key.text
    have later := fresh_behind nodup.1 fresh.2
    cases known : fields.find? (·.key == k.textOf) with
    | none =>
      obtain ⟨c', rest⟩ := ih later c decodes.2 reads.2 nodup.2
      exact ⟨c', .skip key known fresh.1 rest⟩
    | some g =>
      have named : g.key = k.textOf := by simpa using List.find?_some known
      obtain ⟨c', decoded⟩ := decodes.1 g (List.mem_of_find?_eq_some known) named c
      obtain ⟨c'', rest⟩ := ih later c' decodes.2 reads.2 nodup.2
      exact ⟨c'', .cons key known fresh.1 decoded rest⟩

end BoundedRecords.Yaml
