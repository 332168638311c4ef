import BoundedRecords.Proofs.Api.Bodies
import BoundedRecords.Proofs.Json.Printing
import BoundedRecords.Proofs.Record.Truncation

/-! What a client reads in the answer to a request for one record: the name as the record holds it, the age,
the score and the greeting. -/
namespace BoundedRecords.Api

theorem valid_utf8 (s : String) : Utf8.valid (utf8 s) = true := Utf8.valid_flatMap_encode s.toList

theorem valid_append {s t : Bytes} (first : Utf8.valid s = true) (second : Utf8.valid t = true) :
    Utf8.valid (s ++ t) = true := by
  obtain ⟨cs, rfl⟩ := (Utf8.valid_iff s).mp first
  obtain ⟨ds, rfl⟩ := (Utf8.valid_iff t).mp second
  rw [← List.flatMap_append]
  exact Utf8.valid_flatMap_encode _

/-! The requested name. -/

def ValidName (q : RecordRequest) : Prop := ∀ d, q.name = some d → Utf8.valid d = true

theorem takeMember_validName {n : Nat} {q q' : RecordRequest} {m : Bytes × Json} (valid : ValidName q)
    (spellable : Json.Spellable n m.2) (taken : takeMember q m = some q') : ValidName q' := by
  obtain ⟨key, v⟩ := m
  unfold takeMember at taken
  simp only at taken
  split at taken
  · split at taken
    · cases taken
      exact fun d none => (nomatch none)
    · cases taken
      rintro d ⟨⟩
      cases spellable with
      | string whole => exact whole
    · cases taken
  · split at taken
    · split at taken
      · cases taken
        exact valid
      · obtain ⟨age, _, rfl⟩ := Option.map_eq_some_iff.mp taken
        exact valid
      · cases taken
    · cases taken
      exact valid

theorem foldlM_takeMember_validName {n : Nat} {members : List (Bytes × Json)} {q q' : RecordRequest}
    (valid : ValidName q) (spellable : ∀ m ∈ members, Json.Spellable n m.2)
    (taken : members.foldlM takeMember q = some q') : ValidName q' := by
  induction members generalizing q with
  | nil =>
    cases taken
    exact valid
  | cons m members ih =>
    simp only [List.foldlM_cons, Option.bind_eq_bind, Option.bind_eq_some_iff] at taken
    obtain ⟨next, first, rest⟩ := taken
    have later := takeMember_validName valid (spellable m List.mem_cons_self) first
    exact ih later (fun k found => spellable k (List.mem_cons_of_mem m found)) rest

/-- The name that a text asks for is valid, whatever bytes it was read from. -/
theorem valid_of_recordOfJson {n : Nat} {v : Json} {d : Bytes} {age : Int64} (spellable : Json.Spellable n v)
    (decoded : recordOfJson v = some ⟨some d, age⟩) : Utf8.valid d = true := by
  cases spellable with
  | null => cases decoded
  | object _ values =>
    have blank : ValidName .blank := fun _ none => (nomatch none)
    exact foldlM_takeMember_validName blank values decoded d rfl
  | bool _ => cases decoded
  | number _ => cases decoded
  | string _ => cases decoded
  | array _ => cases decoded

/-- A body carries at most one value. -/
theorem carries_unique {body : Bytes} {v w : Json} (first : Carries body v) (second : Carries body w) : v = w := by
  obtain ⟨_, tail, ⟨t, blank, begins, white, rfl⟩, ends, rfl⟩ := first
  obtain ⟨_, tail', ⟨t', blank', begins', white', rfl⟩, ends', split⟩ := second
  have found := firstValue_of_begins begins (follows_append white ends) (Nat.le_refl _)
  have found' := firstValue_of_begins begins' (follows_append white' ends') (Nat.le_refl _)
  rw [← List.append_assoc, split, List.append_assoc, found'] at found
  simp only [Except.ok.injEq, Prod.mk.injEq] at found
  exact found.1.symm

/-! The answer. -/

/-- What the answer shows of a record with this name and age, member by member. -/
structure ShowsRecord (shown : Json) (name : Bytes) (age : Int64) : Prop where
  success : shown.get? "success" = some (.bool true)
  named : (shown.get? "data").bind (Json.get? "name") = some (.string name)
  aged : ∃ t, (shown.get? "data").bind (Json.get? "age") = some (.number t) ∧ wholeNumber? t = some age
  scored : (shown.get? "data").bind (Json.get? "score") = some (.number (utf8 "0"))
  greeted : (shown.get? "data").bind (Json.get? "greeting") = some (.string (utf8 "Hello, " ++ name ++ utf8 "!"))

def shownRecord (p : Person) : Json := .record [("success", .bool true), ("data", personView p)]

theorem spellable_record {n : Nat} {members : List (String × Json)}
    (values : ∀ m ∈ members, Json.Spellable n m.2) : Json.Spellable (n + 1) (.record members) := by
  refine .object ?_ ?_
  · intro m found
    obtain ⟨k, _, rfl⟩ := List.mem_map.mp found
    exact valid_utf8 k.1
  · intro m found
    obtain ⟨k, inside, rfl⟩ := List.mem_map.mp found
    exact values k inside

theorem spellable_personView {n : Nat} {p : Person} (name : Utf8.valid p.name.text = true) :
    Json.Spellable (n + 1) (personView p) := by
  have greeting : Utf8.valid p.greeting = true := valid_append (valid_append (valid_utf8 _) name) (valid_utf8 _)
  refine spellable_record ?_
  simp only [List.forall_mem_cons, List.not_mem_nil, false_implies, implies_true, and_true]
  exact ⟨.string name, .number (Json.numberText_ofInt _), .number (Json.numberText_ofInt _), .string greeting⟩

theorem spellable_shown {n : Nat} {data : Json} (spellable : Json.Spellable n data) :
    Json.Spellable (n + 1) (.record [("success", .bool true), ("data", data)]) := by
  refine spellable_record ?_
  simp only [List.forall_mem_cons, List.not_mem_nil, false_implies, implies_true, and_true]
  exact ⟨.bool true, spellable⟩

theorem spellable_shownRecord {p : Person} (name : Utf8.valid p.name.text = true) :
    Json.Spellable Json.maxDepth (shownRecord p) := spellable_shown (spellable_personView name)

theorem showsRecord_shownRecord {p : Person} (score : p.score = 0) :
    ShowsRecord (shownRecord p) p.name.text p.age := by
  have read : wholeNumber? (Decimal.ofInt64 p.age) = some p.age := by
    rw [wholeNumber?, Numeral.readSigned_ofInt64]
    rfl
  obtain ⟨name, age, points, owner⟩ := p
  cases score
  exact ⟨rfl, rfl, ⟨_, rfl, read⟩, rfl, rfl⟩

/-- A request for one record is answered with success only if the record was made, unless it broke off where
nothing tells so. -/
theorem create_shown {σ : Type} (A : Allocator σ) (apiKey : Bytes) (info : ApiInfo) (r : Request) (id : Bytes)
    (m : Metrics) (storage : σ) (i : PersonInput)
    (told : r.header "Connection" ≠ utf8 "Upgrade" ∨ ∀ f t, A.allocate Person.size storage ≠ .broken f t)
    (ok : (Host.shown r ((hostOf A apiKey info).fulfil id m storage (.one i))).status = 200) :
    (Host.shown r ((hostOf A apiKey info).fulfil id m storage (.one i))).body =
      Json.write Json.compact (shownRecord i.record) := by
  cases asked : A.allocate Person.size storage with
  | done u t =>
    simp only [Host.fulfil, hostOf, Maker.ofAllocator, Factory.create, asked]
    rfl
  | refused e t =>
    simp only [Host.fulfil, hostOf, Maker.ofAllocator, Factory.create, asked, Host.conclude, Host.shown, refusal] at ok
    split at ok
    · exact absurd ok (by decide : ¬ 503 = 200)
    · exact absurd ok (by decide : ¬ 500 = 200)
  | broken f t =>
    rcases told with plain | never
    · have differs : (r.header "Connection" == utf8 "Upgrade") = false := by simpa using plain
      simp only [Host.fulfil, hostOf, Maker.ofAllocator, Factory.create, asked, Host.conclude, Host.shown,
        Host.brokenOff, differs] at ok
      exact absurd ok (by decide)
    · exact absurd asked (never f t)

/-- A client reads back exactly the record that was made. The body of the request gives one value; its name
and age are those of the answer, the name cut to the longest beginning that a record can hold. -/
theorem answer_shows_record {σ : Type} (A : Allocator σ) (apiKey : Bytes) (info : ApiInfo) (fresh : Bytes) (r : Request)
    (s : HostState σ) (post : r.method = utf8 "POST") (path : r.path = utf8 "/api/v1/records")
    (told : r.header "Connection" ≠ utf8 "Upgrade" ∨ ∀ f t, A.allocate Person.size s.storage ≠ .broken f t)
    (ok : ((hostOf A apiKey info).serve fresh r s).answer.status = 200) :
    ∃ v d age, Carries r.body v ∧ (∀ w, Carries r.body w → w = v) ∧ recordOfJson v = some ⟨some d, age⟩ ∧
      Name.LongestFit d (Name.new d).text ∧
      ∃ shown, Json.parse ((hostOf A apiKey info).serve fresh r s).answer.body = some shown ∧
        ShowsRecord shown (Name.new d).text age := by
  have apart : r.path ≠ utf8 "/metrics" := by
    rw [path]
    decide
  cases ordered : (hostOf A apiKey info).order? r with
  | none => exact absurd ok ((Host.serve_unordered ordered fresh s).2.2 post apart).1
  | some o =>
    -- A request to this path orders one record; the answer to a batch has another form.
    have posts := postsTo_of_ordered ordered
    have endpoint : o.endpoint = .record := postsTo_unique posts ⟨.inl rfl, post, path⟩
    cases o with
    | many inputs => cases endpoint
    | one i =>
      obtain ⟨id, m, status, body, _⟩ := Host.serve_ordered ordered fresh s
      have written := body.trans (create_shown A apiKey info r id m s.storage i told (status.symm.trans ok))
      have read : readOne r.body = .ok i := by
        have reached := (Host.order?_target ordered).1
        simp only [Host.order?, reached, Order.endpoint] at ordered
        revert ordered
        cases readOne r.body <;> simp [Except.toOption]
      obtain ⟨v, carries, decoded⟩ := carries_of_readBody ((readOne_eq_ok_iff _ _).mp read)
      have valid : Utf8.valid i.name = true := by
        obtain ⟨t, tail, text, _⟩ := carries
        exact valid_of_recordOfJson text.spellable decoded
      have longest : Name.LongestFit i.name (Name.new i.name).text := by
        rw [Name.text_new valid]
        exact Name.truncate_longestFit valid
      have parsed := Json.parse_write Json.compact_blank (spellable_shownRecord (p := i.record) longest.fits.whole)
      refine ⟨v, i.name, i.age, carries, fun w other => carries_unique other carries, decoded, longest, ?_⟩
      exact ⟨shownRecord i.record, by rw [written]; exact parsed, showsRecord_shownRecord rfl⟩

/-- A name of 98 letters and one character of two bytes, behind an escape: one byte too long. -/
theorem answer_shows_record_cut :
    let r : Request := ⟨utf8 "POST", utf8 "/api/v1/records?x=1", [(utf8 "connection", utf8 "Upgrade")],
      utf8 ("\x7b\"NAME\":\"\\u0041" ++ String.ofList (List.replicate 97 'x') ++ "é\",\"age\":-9223372036854775808\x7d]")⟩
    let a := ((hostOf Quota.allocator [] .default).serve [] r ⟨⟨1, 0⟩, .new⟩).answer
    a.status = 200 ∧
    ∃ v d age, Carries r.body v ∧ (∀ w, Carries r.body w → w = v) ∧ recordOfJson v = some ⟨some d, age⟩ ∧
      Name.LongestFit d (Name.new d).text ∧
      ∃ shown, Json.parse a.body = some shown ∧ ShowsRecord shown (Name.new d).text age := by
  intro r a
  have ok : a.status = 200 := by decide +kernel
  have told := fun f t => quota_answers Person.size ⟨1, 0⟩ f t
  exact ⟨ok, answer_shows_record Quota.allocator [] .default [] r ⟨⟨1, 0⟩, .new⟩ rfl (by decide) (.inr told) ok⟩

/-- A request that broke off is answered as if it had succeeded where the protocol was to be changed, with
nothing to read in the answer. -/
theorem broken_upgrade_answered_ok :
    let r : Request := ⟨utf8 "POST", utf8 "/api/v1/records", [(utf8 "Connection", utf8 "Upgrade")],
      utf8 "\x7b\"name\":\"Alice\",\"age\":30\x7d"⟩
    let a := ((hostOf Allocator.broken [] .default).serve [] r ⟨(), .new⟩).answer
    a.status = 200 ∧ ¬ ∃ shown, Json.parse a.body = some shown := by
  intro r a
  refine ⟨by decide +kernel, ?_⟩
  rintro ⟨shown, parsed⟩
  have none : (Json.parse a.body).isNone = true := by decide +kernel
  rw [parsed] at none
  cases none

end BoundedRecords.Api
