import BoundedRecords.Proofs.Yaml.Records

/-! What a mapping says of the fields of a record. A field is told by the value under its key, wherever among the entries
that stands. So entries may change places, and others may stand beside them. -/
namespace BoundedRecords.Yaml

/-! Scalars. -/

namespace Node

def isAlias : Node → Bool
  | .alias .. => true
  | _ => false

/-- The value of a scalar, with its text; none for a collection, and for a text that does not fit its tag. -/
def scalar? : Node → Option (Bytes × Value)
  | .scalar _ tag plain text => (scalarValue tag plain text).map fun found => (text, found.2)
  | _ => none

/-- What a scalar says where a text is wanted; null says nothing. -/
def text? (n : Node) : Option (Option Bytes) :=
  n.scalar?.map fun found =>
    match found.2 with
    | .null => none
    | .text s => some s
    | _ => some found.1

/-- What a scalar says where a whole number is wanted. -/
def number? (n : Node) : Option (Option Int64) :=
  n.scalar?.bind fun found =>
    match found.2 with
    | .null => some none
    | v => v.toInt64?.map some

theorem direct_of_scalar? {n : Node} {found : Bytes × Value} (scalar : n.scalar? = some found) : n.isAlias = false := by
  cases n with
  | scalar line tag plain text => rfl
  | sequence line tag items => cases scalar
  | mapping line tag es => cases scalar
  | «alias» line name k => cases scalar

end Node

theorem pure_eq_pure_iff {α : Type} {a b : α} : (pure a : Decode α) = pure b ↔ a = b :=
  ⟨pure_inj, congrArg pure⟩

theorem Appends.bind_ne_pure {α β : Type} {x : Decode α} {f : α → Decode β} (first : Appends x) (next : ∀ a, Appends (f a))
    (never : ∀ a, x ≠ pure a) (b : β) : x >>= f ≠ pure b := by
  rw [ne_eq, first.bind_eq_pure_iff next]
  rintro ⟨a, found, _⟩
  exact never a found

theorem note_ne_pure (p : Problem) (u : Unit) : note p ≠ pure u := by
  intro same
  cases congrArg (StateT.run · []) same

variable (d : Document) (target : Bytes) {n : Node}

/-- A scalar is decoded without a problem to its value, and nothing else is. -/
theorem decodeScalar_cases (direct : n.isAlias = false) :
    (∃ line tag text v, n.scalar? = some (text, v) ∧ decodeScalar d target n = pure (some (line, tag, text, v))) ∨
      n.scalar? = none ∧ ∀ r, decodeScalar d target n ≠ pure r := by
  cases n with
  | scalar line tag plain text =>
    simp only [Node.scalar?, decodeScalar, Document.follow]
    cases scalarValue tag plain text with
    | none =>
      refine .inr ⟨rfl, fun r same => ?_⟩
      cases congrArg (StateT.run · []) same
    | some found => exact .inl ⟨_, _, _, _, rfl, rfl⟩
  | sequence line tag items =>
    exact .inr ⟨rfl, (appends_note _).bind_ne_pure (fun _ => appends_pure _) (note_ne_pure _)⟩
  | mapping line tag es =>
    refine .inr ⟨rfl, (appends_mismatchCollection target _).bind_ne_pure (fun _ => appends_pure _) fun _ => ?_⟩
    rw [mismatchCollection]
    split
    · exact note_ne_pure _ _
    · rename_i twice
      intro same
      exact twice (congrArg Prod.snd (Option.some.inj (congrArg (StateT.run · []) same)))
  | «alias» line name k => cases direct

theorem decodeText_iff (direct : n.isAlias = false) {r : Option Bytes} : decodeText d n = pure r ↔ n.text? = some r := by
  rw [decodeText, Node.text?]
  rcases decodeScalar_cases d _ direct with ⟨line, tag, text, v, scalar, decoded⟩ | ⟨other, undecoded⟩
  · rw [scalar, decoded, pure_bind, Option.map_some, Option.some.injEq]
    cases v <;> exact pure_eq_pure_iff
  · rw [other, Option.map_none]
    simp only [reduceCtorEq, iff_false]
    apply (appends_decodeScalar d textTarget n).bind_ne_pure _ undecoded
    intro found
    split <;> exact appends_pure _

theorem decodeInt64_iff (direct : n.isAlias = false) {r : Option Int64} :
    decodeInt64 d target n = pure r ↔ n.number? = some r := by
  rw [decodeInt64, Node.number?]
  rcases decodeScalar_cases d _ direct with ⟨line, tag, text, v, scalar, decoded⟩ | ⟨other, undecoded⟩
  · have unfit : ∀ p, (note p >>= fun _ => pure none : Decode (Option Int64)) ≠ pure r :=
      fun p => (appends_note p).bind_ne_pure (fun _ => appends_pure _) (note_ne_pure p) r
    rw [scalar, decoded, pure_bind, Option.bind_some]
    cases v with
    | null => rw [pure_eq_pure_iff, Option.some.injEq]
    | _ =>
      dsimp only
      generalize Value.toInt64? _ = whole
      cases whole with
      | none => exact iff_of_false (unfit _) (by simp)
      | some i => exact pure_eq_pure_iff.trans (by simp)
  · rw [other, Option.bind_none]
    simp only [reduceCtorEq, iff_false]
    apply (appends_decodeScalar d target n).bind_ne_pure _ undecoded
    intro found
    split
    · exact appends_pure _
    · exact appends_pure _
    · split
      · exact appends_pure _
      · exact (appends_note _).bind fun _ => appends_pure none

/-! Records. -/

section

variable {S : Type} {fields : List (RecordField S)} {es : List (Node × Node)} {c c' : S}

theorem decodeRecord_null {text : Bytes} (null : n.scalar? = some (text, .null)) (c : S) :
    decodeRecord d target fields n c = pure none := by
  rcases decodeScalar_cases d target (Node.direct_of_scalar? null) with ⟨_, _, _, v, scalar, decoded⟩ | ⟨other, _⟩
  · rw [null] at scalar
    cases scalar
    cases n with
    | scalar line tag plain text =>
      simp only [decodeRecord, fillRecord, Document.follow, decoded, pure_bind, Bool.false_eq_true, if_false]
    | sequence line tag items => cases null
    | mapping line tag es => cases null
    | «alias» line name k => cases null
  · rw [null] at other
    cases other

/-- A record is decoded from a mapping, and nothing is from null. -/
theorem decodeRecord_cases (each : ∀ g ∈ fields, ∀ v c, Appends (g.decode v c)) (direct : n.isAlias = false) {r : Option S}
    (decoded : decodeRecord d target fields n c = pure r) :
    (∃ text, n.scalar? = some (text, .null) ∧ r = none) ∨
      ∃ line tag es c', n = .mapping line tag es ∧ r = some c' ∧ (Distinct es → Fills fields [] es c c') := by
  by_cases mapping : ∃ line tag es, n = .mapping line tag es
  · obtain ⟨line, tag, es, rfl⟩ := mapping
    obtain ⟨c', found, fills⟩ := decodeRecord_mapping d target each rfl decoded
    exact .inr ⟨line, tag, es, c', rfl, found, fills⟩
  · left
    rw [decodeRecord, (appends_fillRecord d target each _ none n c).bind_eq_pure_iff fun _ => appends_pure _] at decoded
    obtain ⟨⟨found, taken, value⟩, filled, result⟩ := decoded
    have itself : d.follow n = some n := by
      cases n with
      | «alias» line name k => cases direct
      | _ => rfl
    simp only [fillRecord, itself] at filled
    have null : ∃ text, n.scalar? = some (text, .null) ∧ found = false := by
      rcases decodeScalar_cases d target direct with ⟨line, tag, text, v, scalar, read⟩ | ⟨_, unread⟩
      · cases n with
        | scalar line tag plain text =>
          simp only [read, pure_bind] at filled
          cases v with
          | null => exact ⟨_, scalar, (Prod.ext_iff.mp (pure_inj filled)).1.symm⟩
          | _ => exact absurd filled ((appends_note _).bind_ne_pure (fun _ => appends_pure _) (note_ne_pure _) _)
        | _ => cases scalar
      · have scalars := appends_decodeScalar d target n
        cases n with
        | mapping line tag es => exact absurd ⟨line, tag, es, rfl⟩ mapping
        | _ =>
          refine absurd filled (scalars.bind_ne_pure ?_ unread _)
          intro found
          split
          · exact appends_pure _
          · exact appends_pure _
          · exact (appends_note _).bind fun _ => appends_pure _
    obtain ⟨text, null, rfl⟩ := null
    exact ⟨text, null, (pure_inj result).symm⟩

end

/-! String keys. -/

/-- A key that is a string: in quotes, of no other kind by its look, or by its tag. -/
def isStringKey : Node → Bool
  | .scalar _ tag plain text => scalarValue tag plain text == some (Tag.str, .text text)
  | _ => false

/-- The keys are different strings. -/
def StringKeyed (es : List (Node × Node)) : Prop :=
  (∀ e ∈ es, isStringKey e.1 = true) ∧ (es.map fun e => e.1.textOf).Nodup

/-- A tree without aliases whose mappings all have different strings as keys. -/
inductive Plain : Node → Prop where
  | scalar (line : Nat) (tag : Option Bytes) (plain : Bool) (text : Bytes) : Plain (.scalar line tag plain text)
  | sequence (line : Nat) (tag : Option Bytes) {items : List Node} (each : ∀ n ∈ items, Plain n) :
    Plain (.sequence line tag items)
  | mapping (line : Nat) (tag : Option Bytes) {es : List (Node × Node)} (keyed : StringKeyed es)
    (each : ∀ e ∈ es, Plain e.2) : Plain (.mapping line tag es)

theorem Plain.direct (plain : Plain n) : n.isAlias = false := by
  cases plain <;> rfl

theorem reads_of_isStringKey {k : Node} (key : isStringKey k = true) : Reads k k.textOf := by
  cases k with
  | scalar line tag plain text =>
    have value : scalarValue tag plain text = some (Tag.str, .text text) := by simpa [isStringKey] using key
    refine ⟨rfl, ?_, fun d => ?_⟩
    · -- What merges has a tag of its own.
      rw [← Bool.not_eq_true]
      intro merge
      simp only [isMergeKey, Bool.and_eq_true, Bool.or_eq_true, beq_iff_eq] at merge
      obtain ⟨rfl, rfl | ⟨rfl, rfl⟩⟩ := merge
      · exact absurd value (by cases plain <;> decide)
      · exact absurd value (by decide)
    · rw [decodeText_iff d rfl, Node.text?, Node.scalar?, value]
      rfl
  | sequence line tag items => cases key
  | mapping line tag es => cases key
  | «alias» line name k => cases key

theorem StringKeyed.distinct {es : List (Node × Node)} (keyed : StringKeyed es) : Distinct es :=
  ⟨fun e found => ⟨_, reads_of_isStringKey (keyed.1 e found)⟩, keyed.2⟩

/-! Fields. -/

/-- What stands under the key of a field, if anything and not null, is the new value; else the old one stays. -/
def LaidOver {α : Type} (told : Node → Option (Option α)) (under : Option Node) (base x : α) : Prop :=
  match under with
  | none => x = base
  | some v => ∃ r, told v = some r ∧ x = r.getD base

/-- The entries of a section. One that is absent or null has none. -/
inductive Section : Option Node → List (Node × Node) → Prop where
  | absent : Section none []
  | null {n : Node} {text : Bytes} : n.scalar? = some (text, .null) → Section (some n) []
  | mapping {line : Nat} {tag : Option Bytes} {es : List (Node × Node)} :
    StringKeyed es → Section (some (.mapping line tag es)) es

theorem Section.unique {v : Option Node} {es es' : List (Node × Node)} (first : Section v es) (second : Section v es') :
    es = es' := by
  cases first with
  | absent =>
    cases second
    rfl
  | null null =>
    cases second with
    | null _ => rfl
    | mapping _ => cases null
  | mapping _ =>
    cases second with
    | null null => cases null
    | mapping _ => rfl

/-! Other orders. -/

/-- The same scalar, on another line perhaps. -/
inductive SameScalar : Node → Node → Prop where
  | intro (line line' : Nat) (tag : Option Bytes) (plain : Bool) (text : Bytes) :
    SameScalar (.scalar line tag plain text) (.scalar line' tag plain text)

theorem SameScalar.scalar?_eq {n' : Node} (same : SameScalar n n') : n.scalar? = n'.scalar? := by
  cases same
  rfl

/-- The entries in another order, and further ones with other keys among them. Values under the known keys are the same in
the sense of `same`; what stands under others may be anything. -/
def Rearranged (known : List Bytes) (same : Bytes → Node → Node → Prop) (es es' : List (Node × Node)) : Prop :=
  StringKeyed es' ∧ ∃ kept extra : List (Node × Node),
    List.Forall₂ (fun e e' => e.1.textOf = e'.1.textOf ∧ (e.1.textOf ∈ known → same e.1.textOf e.2 e'.2)) es kept ∧
    (kept ++ extra).Perm es' ∧ ∀ e ∈ extra, e.1.textOf ∉ known

theorem valueUnder_alike {known : List Bytes} {same : Bytes → Node → Node → Prop} {es kept : List (Node × Node)}
    (alike : List.Forall₂ (fun e e' => e.1.textOf = e'.1.textOf ∧ (e.1.textOf ∈ known → same e.1.textOf e.2 e'.2)) es kept)
    {key : Bytes} (known_ : key ∈ known) : Option.Rel (same key) (valueUnder key es) (valueUnder key kept) := by
  induction alike with
  | nil => exact .none
  | @cons e e' es kept first _ ih =>
    obtain ⟨k, v⟩ := e
    obtain ⟨k', v'⟩ := e'
    obtain ⟨named, values⟩ := first
    rw [valueUnder_cons, valueUnder_cons, ← named]
    by_cases here : k.textOf = key
    · subst here
      rw [if_pos rfl, if_pos rfl]
      exact .some (values known_)
    · rw [if_neg here, if_neg here]
      exact ih

theorem Rearranged.under {known : List Bytes} {same : Bytes → Node → Node → Prop} {es es' : List (Node × Node)}
    (rearranged : Rearranged known same es es') {key : Bytes} (known_ : key ∈ known) :
    Option.Rel (same key) (valueUnder key es) (valueUnder key es') := by
  obtain ⟨keyed, kept, extra, alike, perm, others⟩ := rearranged
  have foreign : valueUnder key extra = none := by
    rw [valueUnder_eq_none_iff]
    rintro e found rfl
    exact others e found known_
  have whole : valueUnder key es' = valueUnder key kept := by
    rw [← valueUnder_perm perm keyed.2, valueUnder, List.find?_append, Option.map_or, ← valueUnder, ← valueUnder, foreign,
      Option.or_none]
  rw [whole]
  exact valueUnder_alike alike known_

/-! Trees can be compared, and so told from a text. -/

mutual

def Node.same : Node → Node → Bool
  | .scalar line tag plain text, .scalar line' tag' plain' text' =>
    decide (line = line' ∧ tag = tag' ∧ plain = plain' ∧ text = text')
  | .sequence line tag items, .sequence line' tag' items' =>
    decide (line = line' ∧ tag = tag') && Node.sameItems items items'
  | .mapping line tag es, .mapping line' tag' es' => decide (line = line' ∧ tag = tag') && Node.sameEntries es es'
  | .alias line name k, .alias line' name' k' => decide (line = line' ∧ name = name' ∧ k = k')
  | _, _ => false

def Node.sameItems : List Node → List Node → Bool
  | [], [] => true
  | n :: items, n' :: items' => n.same n' && Node.sameItems items items'
  | _, _ => false

def Node.sameEntries : List (Node × Node) → List (Node × Node) → Bool
  | [], [] => true
  | (k, v) :: es, (k', v') :: es' => k.same k' && v.same v' && Node.sameEntries es es'
  | _, _ => false

end

mutual

theorem Node.eq_of_same : ∀ {m n : Node}, m.same n = true → m = n
  | .scalar .., .scalar .., compared => by simpa [Node.same] using compared
  | .sequence .., .sequence .., compared => by
    simp only [Node.same, Bool.and_eq_true, decide_eq_true_eq] at compared
    rw [compared.1.1, compared.1.2, Node.eq_of_sameItems compared.2]
  | .mapping .., .mapping .., compared => by
    simp only [Node.same, Bool.and_eq_true, decide_eq_true_eq] at compared
    rw [compared.1.1, compared.1.2, Node.eq_of_sameEntries compared.2]
  | .alias .., .alias .., compared => by simpa [Node.same] using compared

theorem Node.eq_of_sameItems : ∀ {ms ns : List Node}, Node.sameItems ms ns = true → ms = ns
  | [], [], _ => rfl
  | _ :: _, _ :: _, compared => by
    simp only [Node.sameItems, Bool.and_eq_true] at compared
    rw [Node.eq_of_same compared.1, Node.eq_of_sameItems compared.2]

theorem Node.eq_of_sameEntries : ∀ {es es' : List (Node × Node)}, Node.sameEntries es es' = true → es = es'
  | [], [], _ => rfl
  | (_, _) :: _, (_, _) :: _, compared => by
    simp only [Node.sameEntries, Bool.and_eq_true] at compared
    rw [Node.eq_of_same compared.1.1, Node.eq_of_same compared.1.2, Node.eq_of_sameEntries compared.2]

end

/-- Whether this is the tree of a text. -/
def readsAs (s : Bytes) (n : Node) : Bool :=
  match Document.read s with
  | some (some d) => d.root.same n
  | _ => false

theorem exists_of_readsAs {s : Bytes} {n : Node} (reads : readsAs s n = true) :
    ∃ d, Document.read s = some (some d) ∧ d.root = n := by
  unfold readsAs at reads
  split at reads
  · rename_i d document
    exact ⟨d, document, Node.eq_of_same reads⟩
  · cases reads

end BoundedRecords.Yaml
