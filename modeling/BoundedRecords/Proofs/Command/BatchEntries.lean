import BoundedRecords.Command.BatchFile
import BoundedRecords.Proofs.Api.Joining
import BoundedRecords.Proofs.Command.Dispatch
import BoundedRecords.Proofs.Yaml.Records

/-! The entries of a batch file. An entry that is null is dropped before entries are counted and looked at, unlike one that
lacks a name. So the file is taken as a whole unless a null is passed over: one that stands before a named entry, or behind
named ones at the end. -/
namespace BoundedRecords.Command

open Yaml

/-! What an entry says. -/

def isNull (d : Document) (n : Node) : Bool :=
  match d.follow n with
  | some (.scalar _ tag plain text) =>
    match scalarValue tag plain text with
    | some (_, .null) => true
    | _ => false
  | _ => false

def isMapping (d : Document) (n : Node) : Bool :=
  match d.follow n with
  | some (.mapping ..) => true
  | _ => false

/-- The request has the name and the age that stand under these keys, if any do. -/
structure Stands (d : Document) (es : List (Node × Node)) (q : RecordRequest) : Prop where
  nameless : valueUnder (utf8 "name") es = none → q.name = none
  named : ∀ v, valueUnder (utf8 "name") es = some v → decodeText d v = pure q.name
  ageless : valueUnder (utf8 "age") es = none → q.age = 0
  aged : ∀ v, valueUnder (utf8 "age") es = some v → ∃ r, decodeInt64 d (utf8 "int") v = pure r ∧ q.age = r.getD 0

def Says (d : Document) (n : Node) : Option RecordRequest → Prop
  | none => isNull d n
  | some q => ∃ line tag es, d.follow n = some (.mapping line tag es) ∧ BatchFile.entry d n = pure (some q) ∧
      (Keyed es → Stands d es q)

section

variable (d : Document)

theorem appends_field : ∀ g ∈ BatchFile.fields d, ∀ v c, Appends (g.decode v c) := by
  intro g found v c
  simp only [BatchFile.fields, List.mem_cons, List.not_mem_nil, or_false] at found
  rcases found with rfl | rfl
  · apply (appends_decodeText d v).bind
    intro r
    cases r <;> exact appends_pure _
  · apply (appends_decodeInt64 d _ v).bind
    intro r
    cases r <;> exact appends_pure _

theorem appends_entry (n : Node) : Appends (BatchFile.entry d n) :=
  appends_decodeRecord d BatchFile.entryTarget (appends_field d) n .blank

theorem entry_null {n : Node} (null : isNull d n) : BatchFile.entry d n = pure none := by
  unfold isNull at null
  split at null
  · rename_i line tag plain text follows
    have self : d.follow (.scalar line tag plain text) = some (.scalar line tag plain text) := rfl
    split at null
    · rename_i t value
      simp only [BatchFile.entry, decodeRecord, fillRecord, follows, decodeScalar, self, value, pure_bind,
        Bool.false_eq_true, if_false]
    · cases null
  · cases null

variable {d}

/-- A field changes the name or the age, and each only one of them. -/
theorem decode_field {g : RecordField RecordRequest} (field : g ∈ BatchFile.fields d) {v : Node} {c c' : RecordRequest}
    (decoded : g.decode v c = pure c') :
    (g.key = utf8 "name" ∧ c'.age = c.age ∧ ∃ r, decodeText d v = pure r ∧ c'.name = r.or c.name) ∨
      (g.key = utf8 "age" ∧ c'.name = c.name ∧ ∃ r, decodeInt64 d (utf8 "int") v = pure r ∧ c'.age = r.getD c.age) := by
  simp only [BatchFile.fields, List.mem_cons, List.not_mem_nil, or_false] at field
  rcases field with rfl | rfl
  · rw [(appends_decodeText d v).bind_eq_pure_iff (by intro r; cases r <;> exact appends_pure _)] at decoded
    obtain ⟨r, read, same⟩ := decoded
    refine .inl ⟨rfl, ?_⟩
    cases r with
    | none =>
      rw [← pure_inj same]
      exact ⟨rfl, none, read, rfl⟩
    | some s =>
      rw [← pure_inj same]
      exact ⟨rfl, some s, read, rfl⟩
  · rw [(appends_decodeInt64 d _ v).bind_eq_pure_iff (by intro r; cases r <;> exact appends_pure _)] at decoded
    obtain ⟨r, read, same⟩ := decoded
    refine .inr ⟨rfl, ?_⟩
    cases r with
    | none =>
      rw [← pure_inj same]
      exact ⟨rfl, none, read, rfl⟩
    | some age =>
      rw [← pure_inj same]
      exact ⟨rfl, some age, read, rfl⟩

theorem stands_of_fills {es : List (Node × Node)} {q : RecordRequest} (fills : Fills (BatchFile.fields d) [] es .blank q) :
    Stands d es q := by
  have apart : utf8 "age" ≠ utf8 "name" := by decide
  have name := fills.under RecordRequest.name (utf8 "name") rfl (by
    intro g field other e _ _ c c' decoded
    rcases decode_field field decoded with ⟨same, _⟩ | ⟨_, kept, _⟩
    · exact absurd same other
    · exact kept)
  have age := fills.under RecordRequest.age (utf8 "age") rfl (by
    intro g field other e _ _ c c' decoded
    rcases decode_field field decoded with ⟨_, kept, _⟩ | ⟨same, _⟩
    · exact kept
    · exact absurd same other)
  refine ⟨name.1, ?_, age.1, ?_⟩
  · intro v found
    obtain ⟨c₁, c₂, before, decoded, after⟩ := name.2 v found
    rcases decode_field List.mem_cons_self decoded with ⟨_, _, r, read, set⟩ | ⟨same, _⟩
    · rw [after, set, before, read]
      cases r <;> rfl
    · exact absurd same.symm apart
  · intro v found
    obtain ⟨c₁, c₂, before, decoded, after⟩ := age.2 v found
    rcases decode_field (List.mem_cons_of_mem _ List.mem_cons_self) decoded with ⟨same, _⟩ | ⟨_, _, r, read, set⟩
    · exact absurd same apart
    · exact ⟨r, read, by rw [after, set, before]; rfl⟩

theorem says_iff {n : Node} (form : isNull d n ∨ isMapping d n) (e : Option RecordRequest) :
    Says d n e ↔ BatchFile.entry d n = pure e := by
  constructor
  · intro told
    cases e with
    | none => exact entry_null d told
    | some q =>
      obtain ⟨_, _, _, _, decoded, _⟩ := told
      exact decoded
  · intro decoded
    rcases form with null | mapping
    · rw [entry_null d null] at decoded
      rw [← pure_inj decoded]
      exact null
    · unfold isMapping at mapping
      split at mapping
      · rename_i line tag es follows
        obtain ⟨q, rfl, keyed⟩ := decodeRecord_mapping d BatchFile.entryTarget (appends_field d) follows decoded
        exact ⟨line, tag, es, follows, decoded, fun keys => stands_of_fills (keyed keys.distinct)⟩
      · cases mapping

end

/-! The list. -/

/-- The text is a list of these entries. Each of them is null or a mapping. -/
structure Lists (content : Bytes) (d : Document) (items : List Node) : Prop where
  document : Document.read content = some (some d)
  list : ∃ line tag, d.follow d.root = some (.sequence line tag items)
  forms : ∀ n ∈ items, isNull d n ∨ isMapping d n

section

variable {content : Bytes} {d : Document} {items : List Node} (lists : Lists content d items)

include lists

theorem Lists.says_iff (es : List (Option RecordRequest)) :
    List.Forall₂ (Says d) items es ↔ items.mapM (BatchFile.entry d) = pure es := by
  have forms := lists.forms
  rw [mapM_eq_pure_iff (appends_entry d)]
  clear lists
  induction items generalizing es with
  | nil => cases es <;> simp
  | cons n items ih =>
    rw [List.forall_mem_cons] at forms
    cases es with
    | nil => simp
    | cons e es =>
      rw [List.forall₂_cons, List.forall₂_cons]
      exact and_congr (Command.says_iff forms.1 e) (ih es forms.2)

theorem Lists.entries_eq : BatchFile.entries d d.root =
    items.mapM (BatchFile.entry d) >>= fun found => pure (found.filterMap id) := by
  obtain ⟨line, tag, list⟩ := lists.list
  simp only [BatchFile.entries, decodeList, list]

theorem Lists.parse_of_says {es : List (Option RecordRequest)} (told : List.Forall₂ (Says d) items es) :
    BatchFile.parse content = .ok (es.filterMap id) := by
  have decoded : BatchFile.entries d d.root = pure (es.filterMap id) := by
    rw [lists.entries_eq, (lists.says_iff es).mp told, pure_bind]
  simp only [BatchFile.parse, decodeFile, lists.document, decoded]
  rfl

theorem Lists.error_or_says :
    (∃ e, BatchFile.parse content = .error e) ∨ ∃ es, List.Forall₂ (Says d) items es := by
  have each := Appends.mapM (appends_entry d) items
  have appends : Appends (BatchFile.entries d d.root) := by
    rw [lists.entries_eq]
    exact each.bind fun _ => appends_pure _
  rcases decodeFile_cases d [] lists.document appends with failed | ⟨requests, decoded, _⟩
  · exact .inl failed
  · rw [lists.entries_eq, each.bind_eq_pure_iff fun _ => appends_pure _] at decoded
    obtain ⟨es, mapped, _⟩ := decoded
    exact .inr ⟨es, (lists.says_iff es).mpr mapped⟩

end

def listed? (content : Bytes) : Option (List (Option RecordRequest)) :=
  match Document.read content with
  | some (some d) =>
    match d.follow d.root with
    | some (.sequence _ _ items) =>
      if ∀ n ∈ items, isNull d n ∨ isMapping d n then
        match (items.mapM (BatchFile.entry d)).run [] with
        | some (es, []) => some es
        | _ => none
      else none
    | _ => none
  | _ => none

theorem says_of_listed? {content : Bytes} {es : List (Option RecordRequest)} (listed : listed? content = some es) :
    ∃ d items, Lists content d items ∧ List.Forall₂ (Says d) items es := by
  unfold listed? at listed
  split at listed
  · rename_i d document
    split at listed
    · rename_i line tag items list
      split at listed
      · rename_i forms
        have lists : Lists content d items := ⟨document, ⟨line, tag, list⟩, forms⟩
        split at listed
        · rename_i es ran
          cases listed
          have mapped := ((Appends.mapM (appends_entry d) items).eq_pure_iff es).mpr ran
          exact ⟨d, items, lists, (lists.says_iff es).mpr mapped⟩
        · cases listed
      · cases listed
    · cases listed
  · cases listed

/-- A list of requests is accepted with all of them, or for the first that lacks a name it is not. -/
structure Verdict (result : Except BatchError (List PersonInput)) (requests : List RecordRequest) : Prop where
  ok : ∀ people, result = .ok people ↔ people ≠ [] ∧ requests = people.map PersonInput.request
  unnamed : ∀ i, result = .error (.unnamed i) ↔
    ∃ (before : List PersonInput) (q : RecordRequest) (after : List RecordRequest), q.name = none ∧
      requests = before.map PersonInput.request ++ q :: after ∧ i = before.length

theorem verdict_inputs {fs : Files} {path content : Bytes} {requests : List RecordRequest}
    (readable : fs.read path = .ok content) (parsed : BatchFile.parse content = .ok requests) :
    Verdict (BatchFile.inputs fs path) requests := by
  have read : BatchFile.inputs fs path = if requests.isEmpty then .error .empty
      else (RecordRequest.inputs requests).mapError .unnamed := by
    simp only [BatchFile.inputs, readable, parsed]
    cases RecordRequest.inputs requests <;> rfl
  rw [read]
  cases requests with
  | nil =>
    constructor
    · intro people
      refine ⟨fun impossible => (nomatch impossible), ?_⟩
      rintro ⟨some, none⟩
      exact absurd (List.map_eq_nil_iff.mp none.symm) some
    · intro i
      refine ⟨fun impossible => (nomatch impossible), ?_⟩
      rintro ⟨before, q, after, _, none, _⟩
      cases before <;> cases none
  | cons q rest =>
    rw [List.isEmpty_cons, if_neg Bool.false_ne_true]
    constructor
    · intro people
      rw [← RecordRequest.inputs_eq_ok_iff]
      cases found : RecordRequest.inputs (q :: rest) with
      | error j => simp [Except.mapError]
      | ok others =>
        have filled : others ≠ [] := by
          rintro rfl
          cases RecordRequest.inputs_eq_ok_iff.mp found
        simp only [Except.mapError, Except.ok.injEq]
        constructor
        · rintro rfl
          exact ⟨filled, rfl⟩
        · exact And.right
    · intro i
      rw [← RecordRequest.inputs_eq_error_iff]
      cases RecordRequest.inputs (q :: rest) <;> simp [Except.mapError]

/-! Entries and their places. -/

def entryOf (i : PersonInput) : Option RecordRequest := some i.request

/-- The first entry without a name, be it null or not, is the one with this number. -/
def FirstUnnamed (es : List (Option RecordRequest)) (i : Nat) : Prop :=
  ∃ (before : List PersonInput) (e : Option RecordRequest) (after : List (Option RecordRequest)),
    es = before.map entryOf ++ e :: after ∧ (∀ j, e ≠ entryOf j) ∧ i = before.length

/-- A null that stands before a named entry, or behind named ones at the end, and is the first entry without a name. -/
def PassedOver (es : List (Option RecordRequest)) : Prop :=
  ∃ (before : List PersonInput) (k : Nat) (after : List (Option RecordRequest)),
    es = before.map entryOf ++ List.replicate (k + 1) none ++ after ∧
      (after = [] ∧ before ≠ [] ∨ ∃ i rest, after = entryOf i :: rest)

theorem filterMap_entries (before : List PersonInput) (es : List (Option RecordRequest)) :
    (before.map entryOf ++ es).filterMap id = before.map PersonInput.request ++ es.filterMap id := by
  induction before with
  | nil => rfl
  | cons i before ih => exact congrArg (List.cons i.request) ih

theorem filterMap_nulls (k : Nat) (es : List (Option RecordRequest)) :
    (List.replicate k none ++ es).filterMap id = es.filterMap id := by
  induction k with
  | zero => rfl
  | succ k ih => exact ih

theorem named_or_first (es : List (Option RecordRequest)) :
    (∃ people : List PersonInput, es = people.map entryOf) ∨ ∃ i, FirstUnnamed es i := by
  induction es with
  | nil => exact .inl ⟨[], rfl⟩
  | cons e es ih =>
    by_cases named : ∃ i, e = entryOf i
    · obtain ⟨i, rfl⟩ := named
      rcases ih with ⟨people, rfl⟩ | ⟨_, before, e, after, rfl, unnamed, rfl⟩
      · exact .inl ⟨i :: people, rfl⟩
      · exact .inr ⟨_, i :: before, e, after, rfl, unnamed, rfl⟩
    · exact .inr ⟨0, [], e, es, rfl, fun j same => named ⟨j, same⟩, rfl⟩

theorem FirstUnnamed.not_before {es : List (Option RecordRequest)} {i j : Nat} (first : FirstUnnamed es i)
    (other : FirstUnnamed es j) : ¬ i < j := by
  obtain ⟨before, e, after, rfl, unnamed, rfl⟩ := first
  obtain ⟨people, _, _, split, _, rfl⟩ := other
  intro early
  have there := congrArg (·[before.length]?) split
  rw [List.getElem?_append_right (by simp), List.getElem?_append_left (by simpa using early)] at there
  apply unnamed people[before.length]
  simpa [early] using there

theorem nulls_then (es : List (Option RecordRequest)) :
    ∃ k after, es = List.replicate k none ++ after ∧ (after = [] ∨ ∃ q rest, after = some q :: rest) := by
  induction es with
  | nil => exact ⟨0, [], rfl, .inl rfl⟩
  | cons e es ih =>
    cases e with
    | some q => exact ⟨0, some q :: es, rfl, .inr ⟨q, es, rfl⟩⟩
    | none =>
      obtain ⟨k, after, rfl, rest⟩ := ih
      exact ⟨k + 1, after, rfl, rest⟩

theorem entryOf_or (q : RecordRequest) : (∃ i, some q = entryOf i) ∨ q.name = none := by
  obtain ⟨name, age⟩ := q
  cases name with
  | none => exact .inr rfl
  | some name => exact .inl ⟨⟨name, age⟩, rfl⟩

/-- Unless a null is passed over, what is left of the entries lacks its first name at the same place, or nothing is left. -/
theorem left_unnamed {before : List PersonInput} {e : Option RecordRequest} {after : List (Option RecordRequest)}
    (unnamed : ∀ j, e ≠ entryOf j) (clear : ¬ PassedOver (before.map entryOf ++ e :: after)) :
    (before.map entryOf ++ e :: after).filterMap id = [] ∨
      ∃ q later, q.name = none ∧
        (before.map entryOf ++ e :: after).filterMap id = before.map PersonInput.request ++ q :: later := by
  rw [filterMap_entries]
  cases e with
  | some q =>
    rcases entryOf_or q with ⟨i, named⟩ | nameless
    · exact absurd named (unnamed i)
    · exact .inr ⟨q, after.filterMap id, nameless, rfl⟩
  | none =>
    obtain ⟨k, rest, rfl, next⟩ := nulls_then after
    have shape : before.map entryOf ++ none :: (List.replicate k none ++ rest) =
        before.map entryOf ++ List.replicate (k + 1) none ++ rest := by
      simp only [List.replicate_succ, List.append_assoc, List.cons_append]
    rw [shape] at clear
    have left : (none :: (List.replicate k none ++ rest)).filterMap id = rest.filterMap id := filterMap_nulls (k + 1) rest
    rw [left]
    rcases next with rfl | ⟨q, rest, rfl⟩
    · left
      by_contra some
      have filled : before ≠ [] := by
        rintro rfl
        exact some rfl
      exact clear ⟨before, k, [], rfl, .inl ⟨rfl, filled⟩⟩
    · rcases entryOf_or q with ⟨i, named⟩ | nameless
      · exact absurd ⟨before, k, _, rfl, .inr ⟨i, rest, by rw [named]⟩⟩ clear
      · exact .inr ⟨q, rest.filterMap id, nameless, rfl⟩

/-! The same list as JSON. -/

/-- The value says in JSON what an entry says. -/
def Matches (v : Json) : Option RecordRequest → Prop
  | none => v = .null
  | some q => (∃ members, v = .object members) ∧ Api.recordOfJson v = some q

theorem asks_iff {v : Json} {e : Option RecordRequest} (alike : Matches v e) (i : PersonInput) :
    Api.Asks v i ↔ e = entryOf i := by
  cases e with
  | none =>
    rw [alike]
    constructor
    · exact fun impossible => (nomatch Option.some.inj impossible)
    · exact fun impossible => (nomatch impossible)
  | some q =>
    rw [Api.Asks, alike.2]
    rfl

theorem forall_asks_iff {vs : List Json} {es : List (Option RecordRequest)} (alike : List.Forall₂ Matches vs es)
    (people : List PersonInput) : List.Forall₂ Api.Asks vs people ↔ es = people.map entryOf := by
  induction alike generalizing people with
  | nil => cases people <;> simp
  | cons first _ ih =>
    cases people with
    | nil => simp
    | cons i people => rw [List.forall₂_cons, asks_iff first, ih, List.map_cons, List.cons.injEq]

theorem readMany_iff {vs : List Json} {es : List (Option RecordRequest)} {body : Bytes} (text : Json.Text (.array vs) body)
    (small : body.length ≤ Api.maxBody) (alike : List.Forall₂ Matches vs es) (few : es.length ≤ Api.maxBatch) :
    (∃ people, Api.readMany body = .ok people) ↔ ∃ people : List PersonInput, people ≠ [] ∧ es = people.map entryOf := by
  have decoded : Api.recordsOfJson (.array vs) = vs.mapM Api.recordOfJson := rfl
  have read : ∀ people, Api.readMany body = .ok people ↔
      es = people.map entryOf ∧ people ≠ [] ∧ people.length ≤ Api.maxBatch := by
    intro people
    rw [Api.readMany_eq_ok_iff, Api.readBody_carried (Api.carries_of_text text) small, decoded, Api.mapM_eq_some_iff,
      List.forall₂_map_right_iff]
    exact and_congr_left fun _ => forall_asks_iff alike people
  constructor
  · rintro ⟨people, ok⟩
    obtain ⟨same, some, _⟩ := (read people).mp ok
    exact ⟨people, some, same⟩
  · rintro ⟨people, some, rfl⟩
    rw [List.length_map] at few
    exact ⟨people, (read people).mpr ⟨rfl, some, few⟩⟩

/-! The file. -/

/-- The file is taken as a whole: every entry gives one input, in order; a missing name is told at its place; and the same
list is well formed in JSON or in neither form. -/
structure TakenWhole (result : Except BatchError (List PersonInput)) (es : List (Option RecordRequest)) : Prop where
  all : ∀ people, result = .ok people → es = people.map entryOf
  place : ∀ i, result = .error (.unnamed i) → FirstUnnamed es i
  agrees : ∀ vs body, Json.Text (.array vs) body → body.length ≤ Api.maxBody → List.Forall₂ Matches vs es →
    es.length ≤ Api.maxBatch → ((∃ people, result = .ok people) ↔ ∃ people, Api.readMany body = .ok people)

section

variable {result : Except BatchError (List PersonInput)} {es : List (Option RecordRequest)}

theorem filterMap_named (people : List PersonInput) : (people.map entryOf).filterMap id = people.map PersonInput.request := by
  have left := filterMap_entries people []
  rw [List.append_nil, List.filterMap_nil, List.append_nil] at left
  exact left

theorem nameless_not_mem {q : RecordRequest} (nameless : q.name = none) (people : List PersonInput) :
    q ∉ people.map PersonInput.request := by
  intro found
  obtain ⟨i, _, rfl⟩ := List.mem_map.mp found
  cases nameless

theorem takenWhole_of (verdict : Verdict result (es.filterMap id))
    (all : ∀ people, result = .ok people → es = people.map entryOf)
    (place : ∀ i, result = .error (.unnamed i) → FirstUnnamed es i) : TakenWhole result es := by
  refine ⟨all, place, ?_⟩
  intro vs body text small alike few
  -- A list that is well formed in JSON always is so in a file.
  rw [readMany_iff text small alike few]
  constructor
  · rintro ⟨people, ok⟩
    exact ⟨people, ((verdict.ok people).mp ok).1, all people ok⟩
  · rintro ⟨people, some, rfl⟩
    exact ⟨people, (verdict.ok people).mpr ⟨some, filterMap_named people⟩⟩

theorem takenWhole_of_named (people : List PersonInput) (verdict : Verdict result ((people.map entryOf).filterMap id)) :
    TakenWhole result (people.map entryOf) := by
  have left := filterMap_named people
  apply takenWhole_of verdict
  · intro others ok
    have same := ((verdict.ok others).mp ok).2
    rw [left] at same
    have entries := congrArg (List.map some) same
    rw [List.map_map, List.map_map] at entries
    exact entries
  · intro i unnamed
    obtain ⟨before, q, after, nameless, same, _⟩ := (verdict.unnamed i).mp unnamed
    rw [left] at same
    have found : q ∈ people.map PersonInput.request := by
      rw [same]
      exact List.mem_append_right _ List.mem_cons_self
    exact absurd found (nameless_not_mem nameless people)

theorem takenWhole_of_unnamed {i : Nat} (verdict : Verdict result (es.filterMap id)) (first : FirstUnnamed es i)
    (clear : ¬ PassedOver es) : TakenWhole result es := by
  obtain ⟨before, e, after, rfl, unnamed, rfl⟩ := first
  apply takenWhole_of verdict
  · intro people ok
    obtain ⟨some, same⟩ := (verdict.ok people).mp ok
    rcases left_unnamed unnamed clear with nothing | ⟨q, later, nameless, left⟩
    · rw [nothing] at same
      exact absurd (List.map_eq_nil_iff.mp same.symm) some
    · have found : q ∈ people.map PersonInput.request := by
        rw [← same, left]
        exact List.mem_append_right _ List.mem_cons_self
      exact absurd found (nameless_not_mem nameless people)
  · intro i failed
    refine ⟨before, e, after, rfl, unnamed, ?_⟩
    rcases left_unnamed unnamed clear with nothing | ⟨q, later, nameless, left⟩
    · obtain ⟨others, q, rest, _, same, _⟩ := (verdict.unnamed i).mp failed
      rw [nothing] at same
      cases others <;> cases same
    · have told := (verdict.unnamed before.length).mpr ⟨before, q, later, nameless, left, rfl⟩
      rw [failed] at told
      exact BatchError.unnamed.inj (Except.error.inj told)

theorem not_takenWhole (verdict : Verdict result (es.filterMap id)) (passed : PassedOver es) : ¬ TakenWhole result es := by
  intro whole
  obtain ⟨before, k, after, rfl, next⟩ := passed
  have left : (before.map entryOf ++ List.replicate (k + 1) none ++ after).filterMap id =
      before.map PersonInput.request ++ after.filterMap id := by
    rw [List.append_assoc, filterMap_entries, filterMap_nulls]
  rw [left] at verdict
  -- The null is among the entries, so there is not one input for each.
  have refused : ∀ people, result ≠ .ok people := by
    intro people ok
    have null : none ∈ people.map entryOf := by
      rw [← whole.all people ok]
      exact List.mem_append_left _ (List.mem_append_right _ List.mem_cons_self)
    obtain ⟨i, _, impossible⟩ := List.mem_map.mp null
    cases impossible
  rcases next with ⟨rfl, some⟩ | ⟨i, rest, rfl⟩
  · exact refused before ((verdict.ok before).mpr ⟨some, List.append_nil _⟩)
  · have follows : before.map PersonInput.request ++ (entryOf i :: rest).filterMap id =
        (before ++ [i]).map PersonInput.request ++ rest.filterMap id := by
      rw [List.map_append, List.append_assoc]
      rfl
    rw [follows] at verdict
    rcases RecordRequest.named_or_unnamed (rest.filterMap id) with ⟨more, same⟩ | ⟨more, q, later, nameless, same⟩
    · rw [same, ← List.map_append] at verdict
      exact refused _ ((verdict.ok _).mpr ⟨by simp, rfl⟩)
    · rw [same, ← List.append_assoc, ← List.map_append] at verdict
      have told := (verdict.unnamed _).mpr ⟨before ++ [i] ++ more, q, later, nameless, rfl, rfl⟩
      have null : FirstUnnamed (before.map entryOf ++ List.replicate (k + 1) none ++ entryOf i :: rest) before.length :=
        ⟨before, none, List.replicate k none ++ entryOf i :: rest, List.append_assoc .., fun j => (nomatch ·), rfl⟩
      apply null.not_before (whole.place _ told)
      rw [List.length_append, List.length_append, List.length_singleton]
      omega

theorem takenWhole_iff (verdict : Verdict result (es.filterMap id)) : TakenWhole result es ↔ ¬ PassedOver es := by
  constructor
  · intro whole passed
    exact not_takenWhole verdict passed whole
  · intro clear
    rcases named_or_first es with ⟨people, rfl⟩ | ⟨i, first⟩
    · exact takenWhole_of_named people verdict
    · exact takenWhole_of_unnamed verdict first clear

end

/-- A batch file is taken as a whole unless a null is passed over. -/
theorem batch_file_taken_whole_iff (fs : Files) (path content : Bytes) (readable : fs.read path = .ok content) (d : Document)
    (items : List Node) (lists : Lists content d items) :
    ((∃ e, BatchFile.inputs fs path = .error (.unparsable e)) ∨ ∃ es, List.Forall₂ (Says d) items es) ∧
      ∀ es, List.Forall₂ (Says d) items es → (TakenWhole (BatchFile.inputs fs path) es ↔ ¬ PassedOver es) := by
  constructor
  · rcases lists.error_or_says with ⟨e, failed⟩ | told
    · exact .inl ⟨e, by simp only [BatchFile.inputs, readable, failed]⟩
    · exact .inr told
  · intro es told
    exact takenWhole_iff (verdict_inputs readable (lists.parse_of_says told))

def holding (content : Bytes) : Files where
  entry
    | [] => some (.directory 0o755)
    | [name] => if name = utf8 "people" then some (.file 0o644 content) else none
    | _ => none
  working := []

/-- A null behind an entry that lacks its name is not passed over. -/
theorem batch_file_taken_whole_iff_nameless :
    let content := utf8 "- name: A\n- \x7b\x7d\n- null\n- name: B\n"
    let es := [some ⟨some (utf8 "A"), 0⟩, some .blank, none, some ⟨some (utf8 "B"), 0⟩]
    (∃ d items, Lists content d items ∧ List.Forall₂ (Says d) items es) ∧
      TakenWhole (BatchFile.inputs (holding content) (utf8 "people")) es ∧
      BatchFile.inputs (holding content) (utf8 "people") = .error (.unnamed 1) := by
  intro content es
  have readable : (holding content).read (utf8 "people") = .ok content := eq_ok_of_toOption (by decide +kernel)
  have listed : listed? content = some es := by decide +kernel
  obtain ⟨d, items, lists, told⟩ := says_of_listed? listed
  have clear : ¬ PassedOver es := by
    rintro ⟨before, k, after, same, _⟩
    rcases before with _ | ⟨_, _ | ⟨_, _⟩⟩
    · cases List.head_eq_of_cons_eq same
    · cases List.head_eq_of_cons_eq (List.tail_eq_of_cons_eq same)
    · cases List.head_eq_of_cons_eq (List.tail_eq_of_cons_eq same)
  have whole := ((batch_file_taken_whole_iff (holding content) _ content readable d items lists).2 es told).mpr clear
  refine ⟨⟨d, items, lists, told⟩, whole, ?_⟩
  simp only [BatchFile.inputs, readable, lists.parse_of_says told]
  rfl

/-- A null before a named entry is dropped, though in JSON it lacks its name. -/
theorem null_entry_dropped :
    let content := utf8 "- null\n- name: A\n"
    let es := [none, some ⟨some (utf8 "A"), 0⟩]
    (∃ d items, Lists content d items ∧ List.Forall₂ (Says d) items es) ∧
      BatchFile.inputs (holding content) (utf8 "people") = .ok [⟨utf8 "A", 0⟩] ∧
      (¬ ∃ people, Api.readMany (utf8 "[null,\x7b\"name\":\"A\"\x7d]") = .ok people) ∧
      ¬ TakenWhole (BatchFile.inputs (holding content) (utf8 "people")) es := by
  intro content es
  have read : BatchFile.inputs (holding content) (utf8 "people") = .ok [⟨utf8 "A", 0⟩] :=
    eq_ok_of_toOption (by decide +kernel)
  refine ⟨says_of_listed? (by decide +kernel), read, ?_, ?_⟩
  · rintro ⟨people, ok⟩
    have refused : (Api.readMany (utf8 "[null,\x7b\"name\":\"A\"\x7d]")).toOption = none := by decide +kernel
    rw [ok] at refused
    cases refused
  · intro whole
    cases List.head_eq_of_cons_eq (whole.all _ read)

end BoundedRecords.Command
