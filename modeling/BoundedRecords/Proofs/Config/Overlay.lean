import BoundedRecords.Config.Store
import BoundedRecords.Proofs.Config.ReadBack
import BoundedRecords.Proofs.Files.Locations
import BoundedRecords.Proofs.Yaml.Overlays

/-! A configuration file as an overlay. Each field is what the file says of it, or else what it was; in which order the
file says it, and what else it says, does not matter. -/
namespace BoundedRecords.Config

open Yaml

/-! Fields that are read from scalars. -/

/-- A field that is set to what a reader finds, if it finds anything. -/
def leafField {α : Type} (read : Node → Decode (Option α)) (key : String) (set : α → Config → Config) :
    RecordField Config :=
  ⟨utf8 key, fun n c => do
    match ← read n with
    | some x => return set x c
    | none => return c⟩

theorem textField_eq (d : Document) (key : String) (set : Bytes → Config → Config) :
    textField d key set = leafField (decodeText d) key set := by
  unfold textField leafField
  congr 1
  funext n c
  congr 1
  funext r
  cases r <;> rfl

theorem numberField_eq (d : Document) (key : String) (target : Bytes) (set : Int64 → Config → Config) :
    numberField d key target set = leafField (decodeInt64 d target) key set := by
  unfold numberField leafField
  congr 1
  funext n c
  congr 1
  funext r
  cases r <;> rfl

/-- The reader finds what a node tells, unless the node is an alias. -/
structure Reader {α : Type} (read : Node → Decode (Option α)) (told : Node → Option (Option α)) : Prop where
  appends : ∀ n, Appends (read n)
  direct : ∀ {n r}, told n = some r → n.isAlias = false
  finds : ∀ {n r}, n.isAlias = false → (read n = pure r ↔ told n = some r)

theorem reader_text (d : Document) : Reader (decodeText d) Node.text? where
  appends := appends_decodeText d
  direct told := by
    obtain ⟨found, scalar, _⟩ := Option.map_eq_some_iff.mp told
    exact Node.direct_of_scalar? scalar
  finds direct := decodeText_iff d direct

theorem reader_number (d : Document) (target : Bytes) : Reader (decodeInt64 d target) Node.number? where
  appends := appends_decodeInt64 d target
  direct told := by
    obtain ⟨found, scalar, _⟩ := Option.bind_eq_some_iff.mp told
    exact Node.direct_of_scalar? scalar
  finds direct := decodeInt64_iff d target direct

section

variable {α β : Type} {read : Node → Decode (Option α)} {told : Node → Option (Option α)}
  (reader : Reader read told) {key : String} {set : α → Config → Config} {v : Node} {c c' : Config}

include reader

theorem appends_leaf (v : Node) (c : Config) : Appends ((leafField read key set).decode v c) := by
  apply (reader.appends v).bind
  intro r
  cases r <;> exact appends_pure _

theorem decode_leaf_iff :
    (leafField read key set).decode v c = pure c' ↔ ∃ r : Option α, read v = pure r ∧ c' = r.elim c fun x => set x c := by
  rw [leafField, (reader.appends v).bind_eq_pure_iff (by intro r; cases r <;> exact appends_pure _)]
  constructor
  · rintro ⟨r, found, same⟩
    cases r <;> exact ⟨_, found, (pure_inj same).symm⟩
  · rintro ⟨r, found, rfl⟩
    cases r <;> exact ⟨_, found, rfl⟩

theorem decode_leaf {r : Option α} (told_ : told v = some r) (c : Config) :
    (leafField read key set).decode v c = pure (r.elim c fun x => set x c) := by
  rw [decode_leaf_iff reader]
  exact ⟨r, (reader.finds (reader.direct told_)).mpr told_, rfl⟩

theorem decodes_of_laid {under : Option Node} {base x : α} (laid : LaidOver told under base x) (there : under = some v)
    (c : Config) : ∃ c', (leafField read key set).decode v c = pure c' := by
  subst there
  obtain ⟨r, told_, _⟩ := laid
  exact ⟨_, decode_leaf reader told_ c⟩

/-- A field leaves the parts alone that setting it does. -/
theorem leaf_keeps {part : Config → β} (apart : ∀ x c, part (set x c) = part c)
    (decoded : (leafField read key set).decode v c = pure c') : part c' = part c := by
  obtain ⟨r, _, rfl⟩ := (decode_leaf_iff reader).mp decoded
  cases r with
  | none => rfl
  | some x => exact apart x c

variable {fields : List (RecordField Config)} {es : List (Node × Node)} {seen : List Bytes} {part : Config → α}

theorem fills_leaf_exists (found : fields.find? (·.key == utf8 key) = some (leafField read key set))
    (fills : Fills fields seen es c c') (direct : ∀ v, valueUnder (utf8 key) es = some v → v.isAlias = false) (base : α) :
    ∃ x, LaidOver told (valueUnder (utf8 key) es) base x := by
  cases under : valueUnder (utf8 key) es with
  | none => exact ⟨base, rfl⟩
  | some v =>
    obtain ⟨c₁, c₂, decoded⟩ := fills.decoded found under
    obtain ⟨r, read_, _⟩ := (decode_leaf_iff reader).mp decoded
    exact ⟨r.getD base, r, (reader.finds (direct v under)).mp read_, rfl⟩

theorem fills_leaf_eq (found : fields.find? (·.key == utf8 key) = some (leafField read key set))
    (lens : ∀ x c, part (set x c) = x) (others : ChangedOnlyBy fields es part (utf8 key))
    (fills : Fills fields seen es c c') {x : α} (laid : LaidOver told (valueUnder (utf8 key) es) (part c) x) :
    part c' = x := by
  obtain ⟨absent, there⟩ := fills.under part (utf8 key) found others
  cases under : valueUnder (utf8 key) es with
  | none =>
    rw [under] at laid
    exact (absent under).trans (Eq.symm laid)
  | some v =>
    rw [under] at laid
    obtain ⟨r, told_, rfl⟩ := laid
    obtain ⟨c₁, c₂, before, decoded, after⟩ := there v under
    rw [decode_leaf reader told_] at decoded
    rw [after, ← pure_inj decoded, ← before]
    cases r with
    | none => rfl
    | some x => exact lens x c₁

end

/-! Sections. -/

/-- The field of a section is laid over what it was. -/
def LaidIn {α : Type} (told : Node → Option (Option α)) (key field : String) (es : List (Node × Node))
    (base x : α) : Prop :=
  ∃ inner, Section (valueUnder (utf8 key) es) inner ∧ LaidOver told (valueUnder (utf8 field) inner) base x

section

variable {d : Document} {key : String} {target : Bytes} {inner : List (RecordField Config)}
  (each : ∀ g ∈ inner, ∀ v c, Appends (g.decode v c))
  {v : Node} {c c' : Config} {es es' : List (Node × Node)}

include each

theorem appends_section (v : Node) (c : Config) : Appends ((sectionField d key target inner).decode v c) := by
  apply (appends_decodeRecord d target each v c).bind
  intro r
  cases r <;> exact appends_pure _

theorem section_cases (direct : v.isAlias = false) (decoded : (sectionField d key target inner).decode v c = pure c') :
    (∃ text, v.scalar? = some (text, .null)) ∧ c' = c ∨
      ∃ line tag es, v = .mapping line tag es ∧ (Distinct es → Fills inner [] es c c') := by
  have inverted := fun next => ((appends_decodeRecord d target each v c).bind_eq_pure_iff next c').mp decoded
  obtain ⟨r, record, same⟩ := inverted (by intro r; cases r <;> exact appends_pure _)
  rcases decodeRecord_cases d target each direct record with ⟨text, null, rfl⟩ | ⟨line, tag, es, c'', mapping, rfl, fills⟩
  · exact .inl ⟨⟨text, null⟩, (pure_inj same).symm⟩
  · cases pure_inj same
    exact .inr ⟨line, tag, es, mapping, fills⟩

theorem section_fills (inside : Section (some v) es) (decoded : (sectionField d key target inner).decode v c = pure c') :
    Fills inner [] es c c' := by
  cases inside with
  | null null =>
    rcases section_cases each (Node.direct_of_scalar? null) decoded with ⟨_, rfl⟩ | ⟨_, _, _, rfl, _⟩
    · exact .nil
    · cases null
  | mapping keyed =>
    rcases section_cases each rfl decoded with ⟨⟨_, null⟩, _⟩ | ⟨_, _, _, same, fills⟩
    · cases null
    · cases same
      exact fills keyed.distinct

omit each in
theorem section_decodes (inside : Section (some v) es)
    (values : ∀ g ∈ inner, ∀ w, valueUnder g.key es = some w → ∀ c, ∃ c', g.decode w c = pure c') (c : Config) :
    ∃ c', (sectionField d key target inner).decode v c = pure c' := by
  cases inside with
  | null null =>
    refine ⟨c, ?_⟩
    simp only [sectionField, decodeRecord_null d target null, pure_bind]
  | mapping keyed =>
    obtain ⟨c', fills⟩ := fills_of_decodable keyed.distinct values (fun _ _ => List.not_mem_nil) c
    exact ⟨c', decode_sectionField d fills key target _ _⟩

variable {fields : List (RecordField Config)} {seen : List Bytes}
  (found : fields.find? (·.key == utf8 key) = some (sectionField d key target inner))

include found

/-- The entries of a section fill its part of the configuration. -/
theorem fills_section {α : Type} {part : Config → α}
    (others : ChangedOnlyBy fields es part (utf8 key))
    (fills : Fills fields seen es c c') (inside : Section (valueUnder (utf8 key) es) es') :
    ∃ c₁ c₂, part c₁ = part c ∧ Fills inner [] es' c₁ c₂ ∧ part c' = part c₂ := by
  obtain ⟨absent, there⟩ := fills.under part (utf8 key) found others
  cases under : valueUnder (utf8 key) es with
  | none =>
    rw [under] at inside
    cases inside
    exact ⟨c, c, rfl, .nil, absent under⟩
  | some v =>
    rw [under] at inside
    obtain ⟨c₁, c₂, before, decoded, after⟩ := there v under
    exact ⟨c₁, c₂, before, section_fills each inside decoded, after⟩

theorem fills_section_exists (fills : Fills fields seen es c c')
    (plain : ∀ v, valueUnder (utf8 key) es = some v → Plain v) :
    ∃ es' c₁ c₂, Section (valueUnder (utf8 key) es) es' ∧ (∀ e ∈ es', Plain e.2) ∧ Fills inner [] es' c₁ c₂ := by
  cases under : valueUnder (utf8 key) es with
  | none => exact ⟨[], c, c, .absent, fun _ none => (nomatch none), .nil⟩
  | some v =>
    obtain ⟨c₁, c₂, decoded⟩ := fills.decoded found under
    have simple := plain v under
    rcases section_cases each simple.direct decoded with ⟨⟨text, null⟩, _⟩ | ⟨line, tag, inside, rfl, filled⟩
    · exact ⟨[], c, c, .null null, fun _ none => (nomatch none), .nil⟩
    · cases simple with
      | mapping _ _ keyed values => exact ⟨inside, c₁, c₂, .mapping keyed, values, filled keyed.distinct⟩

variable {α : Type} {read : Node → Decode (Option α)} {told : Node → Option (Option α)}
  (reader : Reader read told) {field : String} {set : α → Config → Config}
  (leaf : inner.find? (·.key == utf8 field) = some (leafField read field set))

include reader leaf

theorem laidIn_eq {part : Config → α} (lens : ∀ x c, part (set x c) = x)
    (others : ChangedOnlyBy fields es part (utf8 key))
    (beside : ∀ g ∈ inner, g.key ≠ utf8 field → ∀ v c c', g.decode v c = pure c' → part c' = part c)
    (fills : Fills fields seen es c c') {x : α} (laid : LaidIn told key field es (part c) x) : part c' = x := by
  obtain ⟨es', inside, laid⟩ := laid
  obtain ⟨c₁, c₂, before, filled, after⟩ := fills_section each found others fills inside
  rw [after]
  exact fills_leaf_eq reader leaf lens (fun g known other e _ _ => beside g known other e.2) filled (before ▸ laid)

theorem laidIn_exists (fills : Fills fields seen es c c') (plain : ∀ v, valueUnder (utf8 key) es = some v → Plain v)
    (base : α) : ∃ x, LaidIn told key field es base x := by
  obtain ⟨es', c₁, c₂, inside, values, filled⟩ := fills_section_exists each found fills plain
  have direct : ∀ v, valueUnder (utf8 field) es' = some v → v.isAlias = false := by
    intro v under
    obtain ⟨e, there, rfl⟩ := Option.map_eq_some_iff.mp under
    exact (values e (List.mem_of_find?_eq_some there)).direct
  obtain ⟨x, laid⟩ := fills_leaf_exists reader leaf filled direct base
  exact ⟨x, es', inside, laid⟩

end

/-! Configurations. -/

/-- Every field is what the entries of a document say of it, if they say anything, and else what it was. -/
structure Overlay (es : List (Node × Node)) (base c : Config) : Prop where
  port : LaidOver Node.number? (valueUnder (utf8 "port") es) base.port c.port
  bind : LaidOver Node.text? (valueUnder (utf8 "bind") es) base.bind c.bind
  apiKey : LaidIn Node.text? "security" "api_key" es base.apiKey c.apiKey
  level : LaidIn Node.text? "logging" "level" es base.level c.level
  format : LaidIn Node.text? "logging" "format" es base.format c.format
  budget : LaidIn Node.number? "allocator" "budget_bytes" es base.budget c.budget

section

variable (d : Document)

def securityFields : List (RecordField Config) :=
  [leafField (decodeText d) "api_key" fun s c => { c with apiKey := s }]

def loggingFields : List (RecordField Config) :=
  [leafField (decodeText d) "level" fun s c => { c with level := s },
    leafField (decodeText d) "format" fun s c => { c with format := s }]

def allocatorFields : List (RecordField Config) :=
  [leafField (decodeInt64 d budgetTarget) "budget_bytes" fun n c => { c with budget := n }]

theorem fields_eq : fields d = [
    leafField (decodeInt64 d portTarget) "port" fun n c => { c with port := n },
    leafField (decodeText d) "bind" fun s c => { c with bind := s },
    sectionField d "security" securityTarget (securityFields d),
    sectionField d "logging" loggingTarget (loggingFields d),
    sectionField d "allocator" allocatorTarget (allocatorFields d)] := by
  simp only [fields, textField_eq, numberField_eq]
  rfl

theorem appends_securityFields : ∀ g ∈ securityFields d, ∀ v c, Appends (g.decode v c) := by
  simp only [securityFields, List.forall_mem_cons, List.not_mem_nil, false_implies, implies_true, and_true]
  exact appends_leaf (reader_text d)

theorem appends_loggingFields : ∀ g ∈ loggingFields d, ∀ v c, Appends (g.decode v c) := by
  simp only [loggingFields, List.forall_mem_cons, List.not_mem_nil, false_implies, implies_true, and_true]
  exact ⟨appends_leaf (reader_text d), appends_leaf (reader_text d)⟩

theorem appends_allocatorFields : ∀ g ∈ allocatorFields d, ∀ v c, Appends (g.decode v c) := by
  simp only [allocatorFields, List.forall_mem_cons, List.not_mem_nil, false_implies, implies_true, and_true]
  exact appends_leaf (reader_number d budgetTarget)

theorem appends_fields : ∀ g ∈ fields d, ∀ v c, Appends (g.decode v c) := by
  simp only [fields_eq, List.forall_mem_cons, List.not_mem_nil, false_implies, implies_true, and_true]
  exact ⟨appends_leaf (reader_number d portTarget), appends_leaf (reader_text d),
    appends_section (appends_securityFields d), appends_section (appends_loggingFields d),
    appends_section (appends_allocatorFields d)⟩

variable {es : List (Node × Node)} {base c c' : Config} (keyed : StringKeyed es)

include keyed

/-- A part that only one of the fields changes is left alone by the others. -/
theorem fields_keep (overlay : Overlay es base c) {α : Type} (part : Config → α) {key : String}
    (port : "port" = key ∨ ∀ x c, part { c with port := x } = part c)
    (bind : "bind" = key ∨ ∀ x c, part { c with bind := x } = part c)
    (security : "security" = key ∨ ∀ x c, part { c with apiKey := x } = part c)
    (logging : "logging" = key ∨
      (∀ x c, part { c with level := x } = part c) ∧ ∀ x c, part { c with format := x } = part c)
    (allocator : "allocator" = key ∨ ∀ x c, part { c with budget := x } = part c) :
    ChangedOnlyBy (fields d) es part (utf8 key) := by
  intro g found other e inside named c c' decoded
  have under : valueUnder g.key es = some e.2 := (valueUnder_eq_some_iff keyed.2).mpr ⟨e, inside, named, rfl⟩
  simp only [fields_eq, List.mem_cons, List.not_mem_nil, or_false] at found
  rcases found with rfl | rfl | rfl | rfl | rfl
  · rcases port with rfl | apart
    · exact absurd rfl other
    · exact leaf_keeps (reader_number d portTarget) apart decoded
  · rcases bind with rfl | apart
    · exact absurd rfl other
    · exact leaf_keeps (reader_text d) apart decoded
  · rcases security with rfl | apart
    · exact absurd rfl other
    · obtain ⟨inner, there, _⟩ := overlay.apiKey
      have filled := section_fills (appends_securityFields d) (under ▸ there) decoded
      apply filled.kept part
      simp only [securityFields, List.forall_mem_cons, List.not_mem_nil, false_implies, implies_true, and_true]
      exact fun _ _ _ _ _ _ => leaf_keeps (reader_text d) apart
  · rcases logging with rfl | ⟨apartLevel, apartFormat⟩
    · exact absurd rfl other
    · obtain ⟨inner, there, _⟩ := overlay.level
      have filled := section_fills (appends_loggingFields d) (under ▸ there) decoded
      apply filled.kept part
      simp only [loggingFields, List.forall_mem_cons, List.not_mem_nil, false_implies, implies_true, and_true]
      exact ⟨fun _ _ _ _ _ _ => leaf_keeps (reader_text d) apartLevel,
        fun _ _ _ _ _ _ => leaf_keeps (reader_text d) apartFormat⟩
  · rcases allocator with rfl | apart
    · exact absurd rfl other
    · obtain ⟨inner, there, _⟩ := overlay.budget
      have filled := section_fills (appends_allocatorFields d) (under ▸ there) decoded
      apply filled.kept part
      simp only [allocatorFields, List.forall_mem_cons, List.not_mem_nil, false_implies, implies_true, and_true]
      exact fun _ _ _ _ _ _ => leaf_keeps (reader_number d budgetTarget) apart

/-- What the entries fill a configuration to is what they say. -/
theorem eq_of_fills (fills : Fills (fields d) [] es base c) (overlay : Overlay es base c') : c = c' := by
  have port : c.port = c'.port := by
    apply fills_leaf_eq (reader_number d portTarget) (by rw [fields_eq]; rfl) (fun _ _ => rfl) _ fills overlay.port
    exact fields_keep d keyed overlay Config.port (.inl rfl) (.inr fun _ _ => rfl) (.inr fun _ _ => rfl)
      (.inr ⟨fun _ _ => rfl, fun _ _ => rfl⟩) (.inr fun _ _ => rfl)
  have bind : c.bind = c'.bind := by
    apply fills_leaf_eq (reader_text d) (by rw [fields_eq]; rfl) (fun _ _ => rfl) _ fills overlay.bind
    exact fields_keep d keyed overlay Config.bind (.inr fun _ _ => rfl) (.inl rfl) (.inr fun _ _ => rfl)
      (.inr ⟨fun _ _ => rfl, fun _ _ => rfl⟩) (.inr fun _ _ => rfl)
  have apiKey : c.apiKey = c'.apiKey := by
    apply laidIn_eq (appends_securityFields d) (by rw [fields_eq]; rfl) (reader_text d) rfl (fun _ _ => rfl) _ _ fills
      overlay.apiKey
    · exact fields_keep d keyed overlay Config.apiKey (.inr fun _ _ => rfl) (.inr fun _ _ => rfl) (.inl rfl)
        (.inr ⟨fun _ _ => rfl, fun _ _ => rfl⟩) (.inr fun _ _ => rfl)
    · simp [securityFields, leafField]
  have level : c.level = c'.level := by
    apply laidIn_eq (appends_loggingFields d) (by rw [fields_eq]; rfl) (reader_text d) rfl (fun _ _ => rfl) _ _ fills
      overlay.level
    · exact fields_keep d keyed overlay Config.level (.inr fun _ _ => rfl) (.inr fun _ _ => rfl) (.inr fun _ _ => rfl)
        (.inl rfl) (.inr fun _ _ => rfl)
    · simp only [loggingFields, List.forall_mem_cons, List.not_mem_nil, false_implies, implies_true, and_true]
      exact ⟨fun other => absurd rfl other, fun _ _ _ _ => leaf_keeps (reader_text d) fun _ _ => rfl⟩
  have format : c.format = c'.format := by
    apply laidIn_eq (appends_loggingFields d) (by rw [fields_eq]; rfl) (reader_text d) rfl (fun _ _ => rfl) _ _ fills
      overlay.format
    · exact fields_keep d keyed overlay Config.format (.inr fun _ _ => rfl) (.inr fun _ _ => rfl) (.inr fun _ _ => rfl)
        (.inl rfl) (.inr fun _ _ => rfl)
    · simp only [loggingFields, List.forall_mem_cons, List.not_mem_nil, false_implies, implies_true, and_true]
      exact ⟨fun _ _ _ _ => leaf_keeps (reader_text d) fun _ _ => rfl, fun other => absurd rfl other⟩
  have budget : c.budget = c'.budget := by
    apply laidIn_eq (appends_allocatorFields d) (by rw [fields_eq]; rfl) (reader_number d budgetTarget) rfl (fun _ _ => rfl)
      _ _ fills overlay.budget
    · exact fields_keep d keyed overlay Config.budget (.inr fun _ _ => rfl) (.inr fun _ _ => rfl) (.inr fun _ _ => rfl)
        (.inr ⟨fun _ _ => rfl, fun _ _ => rfl⟩) (.inl rfl)
    · simp [allocatorFields, leafField]
  cases c
  cases c'
  simp only at port bind apiKey level format budget
  rw [port, bind, apiKey, level, format, budget]

/-- Entries that say what a configuration is can be taken over. -/
theorem fills_of_overlay (overlay : Overlay es base c) : ∃ c', Fills (fields d) [] es base c' := by
  apply fills_of_decodable keyed.distinct _ (fun _ _ => List.not_mem_nil)
  simp only [fields_eq, List.forall_mem_cons, List.not_mem_nil, false_implies, implies_true, and_true]
  refine ⟨?_, ?_, ?_, ?_, ?_⟩
  · exact fun v under => decodes_of_laid (reader_number d portTarget) overlay.port under
  · exact fun v under => decodes_of_laid (reader_text d) overlay.bind under
  · intro v under
    obtain ⟨inner, inside, laid⟩ := overlay.apiKey
    apply section_decodes (under ▸ inside)
    simp only [securityFields, List.forall_mem_cons, List.not_mem_nil, false_implies, implies_true, and_true]
    exact fun w there => decodes_of_laid (reader_text d) laid there
  · intro v under
    obtain ⟨inner, inside, level⟩ := overlay.level
    obtain ⟨inner', inside', format⟩ := overlay.format
    cases inside.unique inside'
    apply section_decodes (under ▸ inside)
    simp only [loggingFields, List.forall_mem_cons, List.not_mem_nil, false_implies, implies_true, and_true]
    exact ⟨fun w there => decodes_of_laid (reader_text d) level there,
      fun w there => decodes_of_laid (reader_text d) format there⟩
  · intro v under
    obtain ⟨inner, inside, laid⟩ := overlay.budget
    apply section_decodes (under ▸ inside)
    simp only [allocatorFields, List.forall_mem_cons, List.not_mem_nil, false_implies, implies_true, and_true]
    exact fun w there => decodes_of_laid (reader_number d budgetTarget) laid there

/-- Entries that could be taken over say something, or nothing, of every field. -/
theorem exists_overlay (plain : ∀ e ∈ es, Plain e.2) (fills : Fills (fields d) [] es base c) : ∃ c', Overlay es base c' := by
  have values : ∀ key v, valueUnder key es = some v → Plain v := by
    intro key v under
    obtain ⟨e, found, _, rfl⟩ := (valueUnder_eq_some_iff keyed.2).mp under
    exact plain e found
  have direct := fun key v under => (values key v under).direct
  have port : ∃ x, LaidOver Node.number? (valueUnder (utf8 "port") es) base.port x :=
    fills_leaf_exists (reader_number d portTarget) (by rw [fields_eq]; rfl) fills (direct _) _
  have bind : ∃ x, LaidOver Node.text? (valueUnder (utf8 "bind") es) base.bind x :=
    fills_leaf_exists (reader_text d) (by rw [fields_eq]; rfl) fills (direct _) _
  have apiKey : ∃ x, LaidIn Node.text? "security" "api_key" es base.apiKey x :=
    laidIn_exists (appends_securityFields d) (by rw [fields_eq]; rfl) (reader_text d) rfl fills (values _) _
  have level : ∃ x, LaidIn Node.text? "logging" "level" es base.level x :=
    laidIn_exists (appends_loggingFields d) (by rw [fields_eq]; rfl) (reader_text d) rfl fills (values _) _
  have format : ∃ x, LaidIn Node.text? "logging" "format" es base.format x :=
    laidIn_exists (appends_loggingFields d) (by rw [fields_eq]; rfl) (reader_text d) rfl fills (values _) _
  have budget : ∃ x, LaidIn Node.number? "allocator" "budget_bytes" es base.budget x :=
    laidIn_exists (appends_allocatorFields d) (by rw [fields_eq]; rfl) (reader_number d budgetTarget) rfl fills (values _) _
  obtain ⟨_, port⟩ := port
  obtain ⟨_, bind⟩ := bind
  obtain ⟨_, apiKey⟩ := apiKey
  obtain ⟨_, level⟩ := level
  obtain ⟨_, format⟩ := format
  obtain ⟨_, budget⟩ := budget
  exact ⟨⟨_, _, _, _, _, _⟩, port, bind, apiKey, level, format, budget⟩

omit keyed in
theorem appends_ofNode (n : Node) (base : Config) : Appends (ofNode d n base) := by
  apply (appends_decodeRecord d target (appends_fields d) n base).bind
  intro r
  cases r <;> exact appends_pure _

theorem ofNode_mapping_iff (line : Nat) (tag : Option Bytes) :
    ofNode d (.mapping line tag es) base = pure c ↔ Fills (fields d) [] es base c := by
  constructor
  · intro decoded
    have record := appends_decodeRecord d target (appends_fields d) (.mapping line tag es) base
    have inverted := fun next => (record.bind_eq_pure_iff next c).mp decoded
    obtain ⟨r, record, same⟩ := inverted (by intro r; cases r <;> exact appends_pure _)
    obtain ⟨c', rfl, fills⟩ := decodeRecord_mapping d target (appends_fields d) rfl record
    cases pure_inj same
    exact fills keyed.distinct
  · intro fills
    have record : decodeRecord d target (fields d) (.mapping line tag es) base = pure (some c) :=
      decodeRecord_fills d target rfl fills
    simp only [ofNode, record, pure_bind]

end

/-! Other orders. -/

/-- The keys of a configuration, and those of its sections. -/
def keys : List Bytes := ["port", "bind", "security", "logging", "allocator"].map utf8

def innerKeys (key : Bytes) : List Bytes :=
  (([("security", ["api_key"]), ("logging", ["level", "format"]), ("allocator", ["budget_bytes"])].map fun (key, inner) =>
    (utf8 key, inner.map utf8)).lookup key).getD []

example (d : Document) : (fields d).map (·.key) = keys ∧
    [securityFields d, loggingFields d, allocatorFields d].map (·.map (·.key)) =
      ["security", "logging", "allocator"].map (innerKeys ∘ utf8) := ⟨rfl, rfl⟩

/-- The same value under a key: a scalar, or a section with its entries in another order. -/
inductive SameValue (key : Bytes) : Node → Node → Prop where
  | scalar {n n' : Node} : SameScalar n n' → SameValue key n n'
  | entries {line line' : Nat} {tag tag' : Option Bytes} {es es' : List (Node × Node)} :
    Rearranged (innerKeys key) (fun _ => SameScalar) es es' → SameValue key (.mapping line tag es) (.mapping line' tag' es')

theorem SameValue.scalar?_eq {key : Bytes} {n n' : Node} (same : SameValue key n n') : n.scalar? = n'.scalar? := by
  cases same with
  | scalar same => exact same.scalar?_eq
  | entries _ => rfl

theorem laidOver_of_alike {α : Type} {told : Node → Option (Option α)} {R : Node → Node → Prop}
    (same : ∀ {n n'}, R n n' → told n = told n') {under under' : Option Node} (alike : Option.Rel R under under')
    {base x : α} (laid : LaidOver told under base x) : LaidOver told under' base x := by
  cases alike with
  | none => exact laid
  | some related =>
    obtain ⟨r, told_, set⟩ := laid
    exact ⟨r, same related ▸ told_, set⟩

theorem section_of_alike {key : Bytes} {under under' : Option Node} (alike : Option.Rel (SameValue key) under under')
    {es : List (Node × Node)} (inside : Section under es) :
    ∃ es', Section under' es' ∧
      ∀ field ∈ innerKeys key, Option.Rel SameScalar (valueUnder field es) (valueUnder field es') := by
  cases inside with
  | absent =>
    cases alike
    exact ⟨[], .absent, fun _ _ => .none⟩
  | null null =>
    cases alike with
    | some same => exact ⟨[], .null (same.scalar?_eq ▸ null), fun _ _ => .none⟩
  | mapping keyed =>
    cases alike with
    | some same =>
      cases same with
      | scalar impossible => cases impossible
      | entries rearranged => exact ⟨_, .mapping rearranged.1, fun field known => rearranged.under known⟩

section

variable {es es' : List (Node × Node)} (rearranged : Rearranged keys SameValue es es') {α : Type}
  {told : Node → Option (Option α)} (same : ∀ {n n'}, n.scalar? = n'.scalar? → told n = told n') {base x : α}

include rearranged same

theorem laidOver_of_rearranged {key : Bytes} (known : key ∈ keys) (laid : LaidOver told (valueUnder key es) base x) :
    LaidOver told (valueUnder key es') base x :=
  laidOver_of_alike (fun related => same related.scalar?_eq) (rearranged.under known) laid

theorem laidIn_of_rearranged {key field : String} (known : utf8 key ∈ keys) (inner : utf8 field ∈ innerKeys (utf8 key))
    (laid : LaidIn told key field es base x) : LaidIn told key field es' base x := by
  obtain ⟨entries, inside, laid⟩ := laid
  obtain ⟨entries', inside', alike⟩ := section_of_alike (rearranged.under known) inside
  exact ⟨entries', inside', laidOver_of_alike (fun related => same related.scalar?_eq) (alike _ inner) laid⟩

end

theorem overlay_of_rearranged {es es' : List (Node × Node)} {base c : Config}
    (rearranged : Rearranged keys SameValue es es') (overlay : Overlay es base c) : Overlay es' base c := by
  have text : ∀ {n n' : Node}, n.scalar? = n'.scalar? → n.text? = n'.text? := by
    intro n n' same
    rw [Node.text?, same]
    rfl
  have number : ∀ {n n' : Node}, n.scalar? = n'.scalar? → n.number? = n'.number? := by
    intro n n' same
    rw [Node.number?, same]
    rfl
  exact {
    port := laidOver_of_rearranged rearranged number (by decide) overlay.port
    bind := laidOver_of_rearranged rearranged text (by decide) overlay.bind
    apiKey := laidIn_of_rearranged rearranged text (by decide) (by decide) overlay.apiKey
    level := laidIn_of_rearranged rearranged text (by decide) (by decide) overlay.level
    format := laidIn_of_rearranged rearranged text (by decide) (by decide) overlay.format
    budget := laidIn_of_rearranged rearranged number (by decide) (by decide) overlay.budget }

/-! Files. -/

/-- A file is at the path that can be read, and this is the document in it. -/
structure Holds (fs : Files) (path : Bytes) (d : Document) : Prop where
  there : fs.mayExist path = true
  document : ∃ content, fs.read (fs.absolute path) = .ok content ∧ Document.read content = some (some d)

theorem Holds.load_iff {fs : Files} {path : Bytes} {d : Document} (holds : Holds fs path d) {c : Config} :
    load fs path = .ok c ↔ ofNode d d.root default = pure c ∧ c.validate = .ok () := by
  obtain ⟨content, read, document⟩ := holds.document
  have parsed : parse content = .ok c ↔ ofNode d d.root default = pure c := by
    constructor
    · intro ok
      have appends := appends_ofNode d d.root default
      rcases @decodeFile_cases d Config (fun d n => ofNode d n default) default content document appends with
        ⟨e, failed⟩ | ⟨v, decoded, done⟩
      · rw [parse, failed] at ok
        cases ok
      · rw [parse, done] at ok
        cases ok
        exact decoded
    · intro decoded
      simp only [parse, decodeFile, document, decoded]
      rfl
  rw [← parsed]
  simp only [load, holds.there, read, Bool.not_true, Bool.false_eq_true, if_false]
  cases parse content with
  | error e => simp
  | ok c' =>
    cases valid : c'.validate with
    | error e =>
      simp only [valid, Except.ok.injEq, reduceCtorEq, false_iff, not_and]
      rintro rfl invalid
      rw [valid] at invalid
      cases invalid
    | ok u =>
      simp only [valid, Except.ok.injEq]
      constructor
      · rintro rfl
        exact ⟨rfl, valid⟩
      · exact And.left

/-- A configuration file lays what it says over the defaults. Any file that says the same in another order, with or without
entries that no configuration has, gives the same configuration. -/
theorem file_overlays_defaults {fs : Files} {path : Bytes} {d : Document} {line : Nat} {tag : Option Bytes}
    {es : List (Node × Node)} {c : Config} (holds : Holds fs path d) (root : d.root = .mapping line tag es)
    (plain : Plain d.root) (loaded : load fs path = .ok c) :
    Overlay es default c ∧
    ∀ {fs' : Files} {path' : Bytes} {d' : Document} {line' : Nat} {tag' : Option Bytes}
      {es' : List (Node × Node)}, Holds fs' path' d' → d'.root = .mapping line' tag' es' →
      Rearranged keys SameValue es es' → load fs' path' = .ok c := by
  obtain ⟨decoded, valid⟩ := holds.load_iff.mp loaded
  rw [root] at plain decoded
  cases plain with
  | mapping _ _ keyed values =>
    have fills := (ofNode_mapping_iff d keyed line tag).mp decoded
    obtain ⟨c', overlay⟩ := exists_overlay d keyed values fills
    cases eq_of_fills d keyed fills overlay
    refine ⟨overlay, ?_⟩
    intro fs' path' d' line' tag' es' holds' root' rearranged
    have keyed' := rearranged.1
    have overlay' := overlay_of_rearranged rearranged overlay
    obtain ⟨c', fills'⟩ := fills_of_overlay d' keyed' overlay'
    cases eq_of_fills d' keyed' fills' overlay'
    apply holds'.load_iff.mpr
    rw [root']
    exact ⟨(ofNode_mapping_iff d' keyed' line' tag').mpr fills', valid⟩

def holds? (fs : Files) (path : Bytes) (n : Node) : Bool :=
  fs.mayExist path && (fs.read (fs.absolute path)).toOption.any (readsAs · n)

theorem exists_of_holds? {fs : Files} {path : Bytes} {n : Node} (held : holds? fs path n = true) :
    ∃ d, Holds fs path d ∧ d.root = n := by
  simp only [holds?, Bool.and_eq_true, Option.any_eq_true] at held
  obtain ⟨there, content, read, reads⟩ := held
  obtain ⟨d, document, root⟩ := exists_of_readsAs reads
  exact ⟨d, ⟨there, content, eq_ok_of_toOption read, document⟩, root⟩

/-- Two files that say the same in other orders, one of them more than that. -/
def twoOrders : Files where
  entry l :=
    if l = [] then some (.directory 0o755)
    else if l = [utf8 "a"] then some (.file 0o600 (utf8 "port: 9100\nlogging:\n  level: debug\n"))
    else if l = [utf8 "b"] then
      some (.file 0o600 (utf8 "logging:\n  colour: true\n  level: debug\nextra: 1\nport: 9100\n"))
    else none
  working := []

def word (line : Nat) (text : String) : Node := .scalar line none true (utf8 text)

def portFirst : List (Node × Node) :=
  [(word 1 "port", word 1 "9100"), (word 2 "logging", .mapping 3 none [(word 3 "level", word 3 "debug")])]

def portLast : List (Node × Node) :=
  [(word 1 "logging", .mapping 2 none [(word 2 "colour", word 2 "true"), (word 3 "level", word 3 "debug")]),
    (word 4 "extra", word 4 "1"), (word 5 "port", word 5 "9100")]

theorem plain_portFirst : Plain (.mapping 1 none portFirst) := by
  apply Plain.mapping 1 none ⟨by decide, by decide⟩
  simp only [portFirst, List.forall_mem_cons, List.not_mem_nil, false_implies, implies_true, and_true]
  refine ⟨.scalar .., .mapping 3 none ⟨by decide, by decide⟩ ?_⟩
  simp only [List.forall_mem_singleton]
  exact .scalar ..

theorem rearranged_portLast : Rearranged keys SameValue portFirst portLast := by
  refine ⟨⟨by decide, by decide⟩, portLast.drop 2 ++ portLast.take 1, (portLast.drop 1).take 1, ?_, ?_, by decide⟩
  · have inner : Rearranged (innerKeys (utf8 "logging")) (fun _ => SameScalar) [(word 3 "level", word 3 "debug")]
        [(word 2 "colour", word 2 "true"), (word 3 "level", word 3 "debug")] :=
      ⟨⟨by decide, by decide⟩, [_], [_], .cons ⟨rfl, fun _ => .intro ..⟩ .nil, .swap .., by decide⟩
    exact .cons ⟨rfl, fun _ => .scalar (.intro ..)⟩ (.cons ⟨rfl, fun _ => .entries inner⟩ .nil)
  · exact (List.perm_append_comm : (portLast.drop 2 ++ portLast.take 2).Perm (portLast.take 2 ++ portLast.drop 2))

theorem file_overlays_defaults_reordered :
    load twoOrders (utf8 "b") = .ok { default with port := 9100, level := utf8 "debug" } := by
  have loaded : load twoOrders (utf8 "a") = .ok { default with port := 9100, level := utf8 "debug" } :=
    eq_ok_of_toOption (by decide +kernel)
  obtain ⟨d, holds, root⟩ : ∃ d, Holds twoOrders (utf8 "a") d ∧ d.root = .mapping 1 none portFirst :=
    exists_of_holds? (by decide +kernel)
  obtain ⟨d', holds', root'⟩ : ∃ d, Holds twoOrders (utf8 "b") d ∧ d.root = .mapping 1 none portLast :=
    exists_of_holds? (by decide +kernel)
  exact (file_overlays_defaults holds root (root ▸ plain_portFirst) loaded).2 holds' root' rearranged_portLast

end BoundedRecords.Config
