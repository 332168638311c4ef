import BoundedRecords.Proofs.Api.Echo
import BoundedRecords.Proofs.Record.Shortages

/-! Shortages over the network. An order for which storage is refused is answered as a shortage, with the text
of the failure that the factory gives; an answer that tells of a fault of the host itself comes from an
endpoint only where the allocator broke off. -/
namespace BoundedRecords.Api

/-- What the answer to an order shows of the records made for it. -/
def Order.shows : Order → List Person → Json
  | .one _, people => (people.head?.map personView).getD .null
  | .many _, people => batchView people

/-! Reading the text of a failure. -/

theorem spelled_failure (text : Bytes) {n : Nat} :
    Json.Spelled (n + 1) (.value (.record [("success", .bool false), ("error", .string (Utf8.repair text))]))
      (Json.writeAt Json.compact 0 (.record [("success", .bool false), ("error", .string text)])) := by
  have success : Json.Spelled n (.members [(utf8 "success", .bool false)])
      (Json.writeMember Json.compact 0 (utf8 "success", .bool false)) := by
    have value : Json.Spelled n (.value (.bool false)) (Json.writeAt Json.compact 1 (.bool false)) :=
      Json.spelled_writeAt Json.compact_blank (.bool false)
    exact Json.spelled_member Json.compact_blank (valid_utf8 "success") value (.noMember Json.white_nil)
  have name := Json.stringText_pieces (utf8 "error")
  rw [Utf8.repair, Utf8.flatMap_encode_chars (valid_utf8 "error")] at name
  have error := Json.Spelled.member (.nextMember success Json.white_nil) name Json.white_nil Json.white_nil
    (.string (Json.stringText_pieces text)) Json.white_nil
  have closed := Json.Spelled.object error
  simpa [Json.record, Json.writeAt, Json.writeMembers, Json.writeMember, Json.writeString, Json.compact] using closed

theorem parse_failure (status : Nat) {text : Bytes} (told : text ≠ []) :
    Json.parse (failure status text).body =
      some (.record [("success", .bool false), ("error", .string (Utf8.repair text))]) := by
  have some : text.isEmpty = false := by simpa using told
  have body : (failure status text).body =
      Json.writeAt Json.compact 0 (.record [("success", .bool false), ("error", .string text)]) ++ [0x0A] := by
    simp only [failure, jsonAnswer, some, Bool.false_eq_true, if_false]
    rfl
  rw [body, Json.parse_eq_some_iff]
  exact ⟨_, [0x0A], ⟨[], _, Json.white_nil, spelled_failure text, rfl⟩, Json.white_singleton (by decide), rfl⟩

/-- The answer says that nothing came of the request, and gives the text as the reason; bytes of it that are no
text are shown as U+FFFD. -/
structure Denies (a : Answer) (text : Bytes) : Prop where
  body : a.body = (failure a.status text).body
  shown : ∃ v, Json.parse a.body = some v ∧ v.get? "success" = some (.bool false) ∧
    v.get? "error" = some (.string (Utf8.repair text)) ∧
    (Utf8.valid text = true → v.get? "error" = some (.string text))

theorem denies_of_body {a : Answer} {text : Bytes} (told : text ≠ []) (body : a.body = (failure a.status text).body) :
    Denies a text := by
  have error : Json.get? "error" (.record [("success", .bool false), ("error", .string (Utf8.repair text))]) =
      some (.string (Utf8.repair text)) := rfl
  refine ⟨body, _, by rw [body, parse_failure a.status told], rfl, error, ?_⟩
  intro valid
  rw [error, Utf8.repair, Utf8.flatMap_encode_chars valid]

theorem shortage_message_ne_nil (size : Int64) (cause : Option Failure) :
    (Failure.shortage size cause).message ≠ [] := by
  cases cause <;> exact List.cons_ne_nil _ _

namespace Host

variable {σ : Type} {A : Allocator σ} {apiKey : Bytes} {info : ApiInfo}

/-- Both kinds of order are fulfilled by one batch. -/
theorem fulfil_eq (A : Allocator σ) (apiKey : Bytes) (info : ApiInfo) (id : Bytes) (m : Metrics) (storage : σ) (o : Order) :
    (hostOf A apiKey info).fulfil id m storage o =
      (hostOf A apiKey info).conclude id (fun people => people) o.shows m (Factory.createAll A o.inputs storage) := by
  cases o with
  | one i =>
    simp only [fulfil, hostOf, Maker.ofAllocator, Order.inputs, Factory.createAll_singleton]
    cases Factory.create A i.name i.age storage <;> rfl
  | many inputs => rfl

theorem serve_refused {r : Request} {o : Order} (ordered : (hostOf A apiKey info).order? r = some o) {s : HostState σ}
    {e : Failure} (refuses : A.Refuses e o.inputs.length s.storage) (fresh : Bytes) :
    ((hostOf A apiKey info).serve fresh r s).answer.status = 503 ∧
      Denies ((hostOf A apiKey info).serve fresh r s).answer (Failure.shortage Person.size (some e)).message := by
  obtain ⟨id, m, status, body, _⟩ := serve_ordered ordered fresh s
  obtain ⟨t, refused⟩ := Factory.createOnto_refused refuses []
  simp only [fulfil_eq, Factory.createAll, refused, conclude] at status body
  have short : ((hostOf A apiKey info).serve fresh r s).answer.status = 503 := status
  refine ⟨short, denies_of_body (shortage_message_ne_nil _ _) ?_⟩
  rw [body, short]
  rfl

theorem serve_unordered_endpoint {r : Request} {e : Endpoint} (reached : (hostOf A apiKey info).target? r = some e)
    (unordered : (hostOf A apiKey info).order? r = none) (fresh : Bytes) (s : HostState σ) :
    ((hostOf A apiKey info).serve fresh r s).answer.status = 200 ∨
      ((hostOf A apiKey info).serve fresh r s).answer.status = 400 := by
  cases e with
  | health =>
    obtain ⟨id, m, _, status, _⟩ := serve_reached reached fresh s
    exact .inl status
  | layout =>
    obtain ⟨id, m, _, status, _⟩ := serve_reached reached fresh s
    exact .inl status
  | record => exact .inr (serve_unordered_status reached rfl unordered fresh s)
  | batch => exact .inr (serve_unordered_status reached rfl unordered fresh s)

/-- An endpoint tells of a fault of the host only where the allocator broke off. -/
theorem breaks_of_fault {r : Request} {e : Endpoint} (reached : (hostOf A apiKey info).target? r = some e)
    {fresh : Bytes} {s : HostState σ} (fault : ((hostOf A apiKey info).serve fresh r s).answer.status = 500) :
    ∃ o, (hostOf A apiKey info).order? r = some o ∧ A.Breaks o.inputs.length s.storage := by
  cases ordered : (hostOf A apiKey info).order? r with
  | none =>
    rcases serve_unordered_endpoint reached ordered fresh s with status | status
    · exact absurd (status.symm.trans fault) (by decide)
    · exact absurd (status.symm.trans fault) (by decide)
  | some o =>
    refine ⟨o, rfl, ?_⟩
    rcases A.grants_or_stops o.inputs.length s.storage with grants | ⟨e, refuses⟩ | breaks
    · obtain ⟨id, m, status, _⟩ := serve_ordered ordered fresh s
      obtain ⟨t, done⟩ := Factory.createAll_granted o.inputs grants
      simp only [fulfil_eq, done, conclude] at status
      exact absurd (status.symm.trans fault) (by decide : ¬ 200 = 500)
    · exact absurd ((serve_refused ordered refuses fresh).1.symm.trans fault) (by decide)
    · exact breaks

end Host

/-- A shortage is the only failure of a factory, and it keeps its identity. Whatever chain of failures an
allocator refuses storage with, no record is made and the failure told is a shortage for one record that
holds the same chain, at any depth of surrounding text; both endpoints answer with its text, and never with
the one for failures of another kind. -/
theorem shortage_keeps_identity {σ : Type} (A : Allocator σ) :
    (∀ e s t, A.allocate Person.size s = .refused e t → ∀ name age, ∃ err,
      Factory.create A name age s = .refused err t ∧ ∀ layers, ShortageOf e (err.wrapped layers)) ∧
    (∀ e s inputs, A.Refuses e inputs.length s → ∃ err t, Factory.createAll A inputs s = .refused err t ∧
      (∀ layers, ShortageOf e (err.wrapped layers)) ∧
      ∀ apiKey info fresh r m o, (hostOf A apiKey info).order? r = some o → o.inputs = inputs →
        ((hostOf A apiKey info).serve fresh r ⟨s, m⟩).answer.status = 503 ∧
        Denies ((hostOf A apiKey info).serve fresh r ⟨s, m⟩).answer err.message) ∧
    (∀ s name age err t, Factory.create A name age s = .refused err t →
      ∃ e, A.allocate Person.size s = .refused e t ∧ ShortageOf e err) ∧
    (∀ s inputs err t, Factory.createAll A inputs s = .refused err t →
      ∃ e, A.Refuses e inputs.length s ∧ ShortageOf e err) ∧
    (∀ apiKey info fresh r e s, (hostOf A apiKey info).target? r = some e →
      ((hostOf A apiKey info).serve fresh r s).answer.status = 500 →
      ∃ o, (hostOf A apiKey info).order? r = some o ∧ A.Breaks o.inputs.length s.storage) := by
  refine ⟨?_, ?_, ?_, ?_, ?_⟩
  · intro e s t refused name age
    refine ⟨.shortage Person.size (some e), ?_, (shortageOf_shortage e).wrapped⟩
    simp only [Factory.create, refused]
  · intro e s inputs refuses
    obtain ⟨t, refused⟩ := Factory.createOnto_refused refuses []
    refine ⟨_, t, refused, (shortageOf_shortage e).wrapped, ?_⟩
    rintro apiKey info fresh r m o ordered rfl
    exact Host.serve_refused (s := ⟨s, m⟩) ordered refuses fresh
  · intro s name age err t refused
    unfold Factory.create at refused
    split at refused
    · cases refused
    · rename_i e u asked
      cases refused
      exact ⟨e, asked, shortageOf_shortage e⟩
    · cases refused
  · intro s inputs err t refused
    obtain ⟨e, refuses, rfl⟩ := (Factory.createAll_eq_refused_iff inputs err).mp ⟨t, refused⟩
    exact ⟨e, refuses, shortageOf_shortage e⟩
  · intro apiKey info fresh r e s reached fault
    exact Host.breaks_of_fault reached fault

/-- A batch of two where the second is refused by an allocator with a failure of its own, behind two lines of
context. -/
theorem shortage_keeps_identity_second :
    let r : Request := ⟨utf8 "POST", utf8 "/api/v1/records/batch", [],
      utf8 "[\x7b\"name\":\"A\"\x7d,\x7b\"name\":\"B\"\x7d]"⟩
    let a := ((hostOf Quota.allocator [] .default).serve [] r ⟨⟨1, 0⟩, .new⟩).answer
    ∃ err t, Factory.createAll Quota.allocator [⟨utf8 "A", 0⟩, ⟨utf8 "B", 0⟩] ⟨1, 0⟩ = .refused err t ∧
      ShortageOf (.plain (utf8 "quota used up")) (err.wrapped [(utf8 "cli: ", []), (utf8 "batch: ", utf8 "!")]) ∧
      a.status = 503 ∧ Denies a err.message := by
  intro r a
  have refuses : Quota.allocator.Refuses (.plain (utf8 "quota used up")) 2 ⟨1, 0⟩ :=
    .inr ⟨⟨0, 1⟩, rfl, .inl ⟨⟨0, 1⟩, rfl⟩⟩
  have ordered : (hostOf Quota.allocator [] .default).order? r = some (.many [⟨utf8 "A", 0⟩, ⟨utf8 "B", 0⟩]) := by rfl
  obtain ⟨err, t, refused, short, answered⟩ :=
    (shortage_keeps_identity Quota.allocator).2.1 _ _ [⟨utf8 "A", 0⟩, ⟨utf8 "B", 0⟩] refuses
  exact ⟨err, t, refused, short _, answered [] .default [] r .new _ ordered rfl⟩

end BoundedRecords.Api
