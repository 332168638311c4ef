import BoundedRecords.Proofs.Api.Ledger

/-! A host keeps no record. The calls of a request on the allocator are told by its answer: as many records as can be
read in it were granted and given back, and an answer that tells of a shortage has left nothing behind. -/
namespace BoundedRecords.Api

/-- What an answer says of a record, member by member. -/
def toldOf (p : Person) : Json :=
  .record [("name", .string p.name.text), ("age", .number (Decimal.ofInt64 p.age)), ("score", .number (utf8 "0")),
    ("greeting", .string (utf8 "Hello, " ++ p.name.text ++ utf8 "!"))]

/-- The data that lists exactly these records: the one that was asked for, or those of a batch with their number. -/
def Lists (people : List Person) (data : Json) : Endpoint → Prop
  | .record => ∃ p, people = [p] ∧ data = toldOf p
  | .batch => data = .record [("count", .number (Decimal.ofNat people.length)), ("records", .array (people.map toldOf))]
  | _ => False

/-- The answer of an endpoint, as it is read back, shows exactly these records. -/
structure Shows (people : List Person) (a : Answer) (e : Endpoint) : Prop where
  number : recordsShown a.body = people.length
  listed : ∃ data, Lists people data e ∧
    Json.parse a.body = some (.record [("success", .bool true), ("data", data)]) ∧
    a.body = Json.write Json.compact (.record [("success", .bool true), ("data", data)])

theorem Order.lists_view (o : Order) : Lists (o.inputs.map PersonInput.record) o.view o.endpoint := by
  cases o with
  | one i => exact ⟨i.record, rfl, rfl⟩
  | many inputs =>
    -- A record that was just made has no points.
    have each : (inputs.map PersonInput.record).map personView = (inputs.map PersonInput.record).map toldOf := by
      rw [List.map_map, List.map_map]
      rfl
    have view : (many inputs).view = .record [
        ("count", .number (Decimal.ofNat (inputs.map PersonInput.record).length)),
        ("records", .array ((inputs.map PersonInput.record).map personView))] := rfl
    rw [view, each]
    exact rfl

theorem shows_of_body {a : Answer} {o : Order} (valid : ∀ i ∈ o.inputs, Utf8.valid i.name = true)
    (body : a.body = (success o.view).body) : Shows (o.inputs.map PersonInput.record) a o.endpoint := by
  have parsed : Json.parse a.body = some (.record [("success", .bool true), ("data", o.view)]) := by
    rw [body]
    exact o.parse_view valid
  refine ⟨?_, o.view, o.lists_view, parsed, body⟩
  rw [recordsShown_of_view parsed, List.length_map]

/-- The calls of a request are told by its answer. -/
structure CallsMatch (r : Request) (a : Answer) (calls : List Call) : Prop where
  silent : (¬ ∃ e, PostsTo r e ∧ (a.status = 200 ∨ a.status = 503)) → calls = []
  served : ∀ e, PostsTo r e → a.status = 200 →
    calls = servedCalls (recordsShown a.body) ∧ ∃ people, Shows people a e
  refused : ∀ e, PostsTo r e → a.status = 503 → ∃ k, calls = refusedCalls k

theorem serve_callsMatch {σ : Type} {A : Allocator σ} (answers : A.Answers) (apiKey : Bytes)
    (info : ApiInfo) (fresh : Bytes) (r : Request) (s : HostState σ) :
    CallsMatch r ((hostOf A apiKey info).serve fresh r s).answer (callsOf A apiKey info fresh r s) := by
  cases ordered : (hostOf A apiKey info).order? r with
  | none =>
    have status := (Host.serve_unordered ordered fresh s).2.2
    refine ⟨fun _ => Host.callsOf_unordered ordered fresh s, ?_, ?_⟩
    · intro e posts ok
      exact absurd ok (status posts.2.1 (postsTo_apart posts)).1
    · intro e posts short
      exact absurd short (status posts.2.1 (postsTo_apart posts)).2
  | some o =>
    have posts := postsTo_of_ordered ordered
    rcases Host.callsOf_ordered answers ordered fresh s with ⟨ok, body, calls⟩ | ⟨k, short, calls⟩
    · refine ⟨fun none => absurd ⟨o.endpoint, posts, .inl ok⟩ none, ?_, ?_⟩
      · intro e other _
        rw [postsTo_unique other posts]
        have shows := shows_of_body (Host.valid_of_order? ordered) body
        refine ⟨?_, _, shows⟩
        rw [calls, shows.number, List.length_map]
      · intro e _ short
        exact absurd (ok.symm.trans short) (by decide)
    · refine ⟨fun none => absurd ⟨o.endpoint, posts, .inr short⟩ none, ?_, fun e _ _ => ⟨k, calls⟩⟩
      intro e _ ok
      exact absurd (short.symm.trans ok) (by decide)

/-- A host keeps no record. Whatever allocator answers it, a request to make records returns as many as
it was granted, and no other request touches the allocator. On a budget of its own nothing is in use
between requests, and once a request has reached the factory the gauge says so. -/
theorem host_keeps_no_record :
    (∀ (σ : Type) (A : Allocator σ), A.Answers →
      ∀ (apiKey : Bytes) (info : ApiInfo) (fresh : Bytes) (r : Request) (s : HostState σ),
        CallsMatch r ((hostOf A apiKey info).serve fresh r s).answer (callsOf A apiKey info fresh r s)) ∧
    (∀ (limit : Int64) (apiKey : Bytes) (info : ApiInfo) (m : Metrics) (requests : List (Bytes × Request)),
      let H := hostOf Budget.allocator apiKey info
      let start : HostState Budget := ⟨Budget.new limit, m⟩
      (H.after start requests).storage.used = 0 ∧
      ∀ before fresh r later, requests = before ++ (fresh, r) :: later →
        callsOf Budget.allocator apiKey info fresh r (H.after start before) ≠ [] →
        (H.after start requests).metrics.inUse = (H.after start requests).storage.used) := by
  refine ⟨fun σ A answers apiKey info fresh r s => serve_callsMatch answers apiKey info fresh r s, ?_⟩
  intro limit apiKey info m requests H start
  constructor
  · have unused : start.storage.used.toInt = 0 := Int64.toInt_zero
    have fits : start.storage.used.toInt + 136 * maxBatch < 2 ^ 63 := by rw [unused]; decide
    rw [Host.after_restores apiKey info (Budget.new_sound limit) fits requests]
    rfl
  · rintro before fresh r later rfl called
    cases ordered : H.order? r with
    | none => exact absurd (Host.callsOf_unordered ordered fresh _) called
    | some o =>
      have current := Host.serve_current_of_ordered ordered fresh (H.after start before)
      rw [Host.after_append, Host.after_cons]
      exact Host.after_current current later _ rfl

/-- A batch of two where a quota that no return refills grants one record, and the same batch on a
budget with room for it. -/
theorem host_keeps_no_record_batch :
    let r : Request := ⟨utf8 "POST", utf8 "/api/v1/records/batch", [],
      utf8 "[\x7b\"name\":\"A\"\x7d,\x7b\"name\":\"B\"\x7d]"⟩
    (∃ k, callsOf Quota.allocator [] .default [] r ⟨⟨1, 0⟩, .new⟩ = refusedCalls k) ∧
      (callsOf Budget.allocator [] .default [] r ⟨Budget.new 300, .new⟩ = servedCalls 2) ∧
      ((hostOf Budget.allocator [] .default).after ⟨Budget.new 300, .new⟩ [([], r)]).metrics.inUse =
        ((hostOf Budget.allocator [] .default).after ⟨Budget.new 300, .new⟩ [([], r)]).storage.used := by
  intro r
  have served : callsOf Budget.allocator [] .default [] r ⟨Budget.new 300, .new⟩ = servedCalls 2 := by
    decide +kernel
  refine ⟨?_, served, ?_⟩
  · have h := host_keeps_no_record.1 Quota Quota.allocator quota_answers [] .default [] r ⟨⟨1, 0⟩, .new⟩
    exact h.refused .batch ⟨.inr rfl, rfl, by decide⟩ (by decide +kernel)
  · have h := (host_keeps_no_record.2 300 [] .default .new [([], r)]).2 [] [] r [] rfl
    exact h (by rw [show (hostOf Budget.allocator [] .default).after ⟨Budget.new 300, .new⟩ [] =
      ⟨Budget.new 300, .new⟩ from rfl, served]; decide)

end BoundedRecords.Api
