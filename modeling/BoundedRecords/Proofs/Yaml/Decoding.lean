import BoundedRecords.Yaml.Decode
import BoundedRecords.Yaml.Write
import BoundedRecords.Proofs.Text.Decimal

/-! What nodes are decoded to: scalars to the texts and whole numbers they were written for, and a mapping to the
record that its entries fill. -/
namespace BoundedRecords.Yaml

/-! Texts. -/

theorem number_text {dates : Bool} {s t : Bytes} (text : number dates s = .text t) : t = s := by
  simp only [number] at text
  iterate 4
    split at text
    · cases text
  exact (Value.text.inj text).symm

/-- A plain scalar that stands for a text stands for itself. -/
theorem plainValue_text {dates : Bool} {s t : Bytes} (text : plainValue dates s = .text t) : t = s := by
  unfold plainValue at text
  iterate 5
    split at text
    · cases text
  split at text
  · exact (Value.text.inj text).symm
  · split at text
    · split at text
      · cases text
      · exact (Value.text.inj text).symm
    · split at text
      · exact number_text text
      · exact (Value.text.inj text).symm

theorem number_ne_null (dates : Bool) (s : Bytes) : number dates s ≠ .null := by
  simp only [number]
  iterate 4
    split
    · exact Value.noConfusion
  exact Value.noConfusion

theorem plainValue_ne_null (dates : Bool) {s : Bytes} (filled : nullWords.contains s = false) :
    plainValue dates s ≠ .null := by
  unfold plainValue
  simp only [filled, Bool.false_eq_true, if_false]
  iterate 4
    split
    · exact Value.noConfusion
  split
  · exact Value.noConfusion
  · split
    · split
      · exact Value.noConfusion
      · exact Value.noConfusion
    · split
      · exact number_ne_null dates _
      · exact Value.noConfusion

variable (d : Document)

/-- A scalar without tag that is not nothing is decoded to its own text, whatever it looks like. -/
theorem decodeText_untagged {s : Bytes} {plain : Bool} (line : Nat)
    (filled : plain = true → nullWords.contains s = false) :
    decodeText d (.scalar line none plain s) = pure (some s) := by
  cases plain with
  | false => rfl
  | true =>
    by_cases merge : (s == mergeKey) = true
    · simp only [decodeText, decodeScalar, Document.follow, scalarValue, merge, Bool.not_true, Bool.false_eq_true,
        if_false, if_true, pure_bind]
    · have other := plainValue_ne_null true (filled rfl)
      have same := @plainValue_text true s
      simp only [decodeText, decodeScalar, Document.follow, scalarValue, merge, Bool.not_true, Bool.false_eq_true,
        if_false, pure_bind]
      cases value : plainValue true s with
      | text t => rw [same value]
      | null => exact absurd value other
      | bool => rfl
      | int n => rfl
      | float x => rfl
      | timestamp => rfl

/-- A key without tag that is not nothing and merges nothing. -/
def Names (k : Node) (name : Bytes) : Prop :=
  ∃ line plain, k = .scalar line none plain name ∧ (plain = true → nullWords.contains name = false ∧ name ≠ mergeKey)

/-- A key that is read as this text and merges nothing. -/
structure Reads (k : Node) (name : Bytes) : Prop where
  text : k.textOf = name
  bare : isMergeKey k = false
  decodes : ∀ d, decodeText d k = pure (some name)

theorem Names.reads {k : Node} {name : Bytes} (names : Names k name) : Reads k name := by
  obtain ⟨line, plain, rfl, bare⟩ := names
  refine ⟨rfl, ?_, fun d => decodeText_untagged d line fun h => (bare h).1⟩
  cases plain with
  | false => simp [isMergeKey]
  | true => simp only [isMergeKey, beq_eq_false_iff_ne.mpr (bare rfl).2, Bool.false_and]

/-- Entries with different keys, none of them in `seen`, that change the record from one to the other. Those whose keys
belong to no field change nothing. -/
inductive Fills {S : Type} (fields : List (RecordField S)) : (seen : List Bytes) → List (Node × Node) → S → S → Prop where
  | nil {seen : List Bytes} {c : S} : Fills fields seen [] c c
  | cons {seen : List Bytes} {k : Node} {name : Bytes} {v : Node} {rest : List (Node × Node)} {field : RecordField S}
      {c c' c'' : S} : Reads k name → fields.find? (·.key == name) = some field → name ∉ seen →
      field.decode v c = pure c' → Fills fields (name :: seen) rest c' c'' → Fills fields seen ((k, v) :: rest) c c''
  | skip {seen : List Bytes} {k : Node} {name : Bytes} {v : Node} {rest : List (Node × Node)} {c c' : S} :
      Reads k name → fields.find? (·.key == name) = none → name ∉ seen → Fills fields (name :: seen) rest c c' →
      Fills fields seen ((k, v) :: rest) c c'

section

variable {S : Type} (target : Bytes) {fields : List (RecordField S)} {seen done : List Bytes} {es : List (Node × Node)}
  {c c' : S}

theorem fillEntry_reads {k v : Node} {name : Bytes} (reads : Reads k name) (fresh : name ∉ done) (c : S) :
    fillEntry d target fields ⟨c, none, done, none⟩ (k, v) =
      match fields.find? (·.key == name) with
      | none => pure ⟨c, none, done, none⟩
      | some field => field.decode v c >>= fun c' => pure ⟨c', none, name :: done, none⟩ := by
  have first : done.contains name = false := by simpa using fresh
  have unmerged : ([] : List Bytes).contains name = false := rfl
  cases known : fields.find? (·.key == name) <;>
    simp only [fillEntry, reads.bare, reads.decodes, pure_bind, Option.getD_none, unmerged, Option.map_none, known, first,
      Bool.false_eq_true, if_false]

theorem Fills.foldlM (fills : Fills fields seen es c c') (subset : done ⊆ seen) :
    ∃ done', es.foldlM (fillEntry d target fields) ⟨c, none, done, none⟩ = pure ⟨c', none, done', none⟩ := by
  induction fills generalizing done with
  | nil => exact ⟨_, rfl⟩
  | @cons seen k name v rest field _ _ _ reads found fresh decoded _ ih =>
    obtain ⟨done', later⟩ := ih (List.cons_subset_cons name subset)
    refine ⟨done', ?_⟩
    rw [List.foldlM_cons, fillEntry_reads d target reads (fun inDone => fresh (subset inDone)), found]
    simp only [decoded, pure_bind, later]
  | @skip seen k name v rest _ _ reads unknown fresh _ ih =>
    obtain ⟨done', later⟩ := ih (List.subset_cons_of_subset name subset)
    refine ⟨done', ?_⟩
    rw [List.foldlM_cons, fillEntry_reads d target reads (fun inDone => fresh (subset inDone)), unknown]
    simp only [pure_bind, later]

theorem Fills.fresh (fills : Fills fields seen es c c') : ∀ e ∈ es, e.1.textOf ∉ seen := by
  induction fills with
  | nil => exact fun _ impossible => nomatch impossible
  | cons reads _ fresh _ _ ih =>
    rw [List.forall_mem_cons, reads.text]
    exact ⟨fresh, fun e later inSeen => ih e later (List.mem_cons_of_mem _ inSeen)⟩
  | skip reads _ fresh _ ih =>
    rw [List.forall_mem_cons, reads.text]
    exact ⟨fresh, fun e later inSeen => ih e later (List.mem_cons_of_mem _ inSeen)⟩

theorem duplicates_cons {k v : Node} (apart : ∀ e ∈ es, e.1.textOf ≠ k.textOf) :
    duplicates ((k, v) :: es) = duplicates es := by
  rw [duplicates, List.filter_eq_nil_iff.mpr]
  · rfl
  · intro e found same
    simp only [Bool.and_eq_true, beq_iff_eq] at same
    exact apart e found same.2.symm

theorem Fills.duplicates (fills : Fills fields seen es c c') : duplicates es = [] := by
  induction fills with
  | nil => rfl
  | cons reads _ _ _ later ih =>
    rw [duplicates_cons, ih]
    intro e found same
    exact later.fresh e found (by rw [same, reads.text]; exact List.mem_cons_self)
  | skip reads _ _ later ih =>
    rw [duplicates_cons, ih]
    intro e found same
    exact later.fresh e found (by rw [same, reads.text]; exact List.mem_cons_self)

/-- The entries of a mapping fill a record. -/
theorem decodeRecord_fills {n : Node} {line : Nat} {tag : Option Bytes}
    (follows : d.follow n = some (.mapping line tag es)) (fills : Fills fields [] es c c') :
    decodeRecord d target fields n c = pure (some c') := by
  obtain ⟨done', folded⟩ := fills.foldlM d target (List.Subset.refl [])
  have filled : fillRecord d target fields (d.size + 1) none n c = pure (true, none, c') := by
    simp only [fillRecord, follows, fills.duplicates, folded, pure_bind]
  simp only [decodeRecord, filled, pure_bind, if_true]

end

end BoundedRecords.Yaml
