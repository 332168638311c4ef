import BoundedRecords.Proofs.Api.Echo
import BoundedRecords.Proofs.Api.KeyGuard
import BoundedRecords.Proofs.Json.Joining

/-! Batches and single requests. The bodies of single requests, joined to one, are read as a batch of the same records:
nothing passes from one entry to the next, and both endpoints ask the same of an entry. -/
namespace BoundedRecords.Api

/-- The value asks for a record with this name and age. -/
def Asks (v : Json) (i : PersonInput) : Prop := recordOfJson v = some i.request

section

variable {α : Type} {decode : Json → Option α} {body : Bytes} {v : Json}

theorem readBody_carried (carries : Carries body v) (small : body.length ≤ maxBody) (a : α) :
    readBody decode body = .ok a ↔ decode v = some a := by
  constructor
  · intro read
    obtain ⟨w, other, decoded⟩ := carries_of_readBody read
    rw [carries_unique carries other]
    exact decoded
  · exact readBody_of_carries carries small

theorem carries_of_text (text : Json.Text v body) : Carries body v :=
  ⟨body, [], text, .inl rfl, (List.append_nil body).symm⟩

end

theorem mapM_eq_some_iff {α β : Type} {f : α → Option β} {xs : List α} {ys : List β} :
    xs.mapM f = some ys ↔ List.Forall₂ (fun x y => f x = some y) xs ys := by
  induction xs generalizing ys with
  | nil => cases ys <;> simp
  | cons x xs ih =>
    simp only [List.mapM_cons, Option.bind_eq_bind, Option.bind_eq_some_iff]
    constructor
    · rintro ⟨y, first, rest, later, same⟩
      cases same
      exact .cons first (ih.mp later)
    · rintro (_ | ⟨first, later⟩)
      exact ⟨_, first, _, ih.mpr later, rfl⟩

theorem readMany_joined {texts : List Bytes} {vs : List Json} (flat : ∀ v ∈ vs, v.Flat)
    (spelled : List.Forall₂ Json.Text vs texts) (some : texts ≠ []) (few : texts.length ≤ maxBatch)
    (small : (Json.joined texts).length ≤ maxBody) (inputs : List PersonInput) :
    readMany (Json.joined texts) = .ok inputs ↔ List.Forall₂ Asks vs inputs := by
  have carries := carries_of_text (Json.text_joined flat spelled some)
  rw [readMany_eq_ok_iff, readBody_carried carries small]
  have decoded : recordsOfJson (.array vs) = vs.mapM recordOfJson := rfl
  rw [decoded, mapM_eq_some_iff, List.forall₂_map_right_iff]
  constructor
  · exact And.left
  · intro asked
    have length : inputs.length = texts.length := asked.length_eq.symm.trans spelled.length_eq
    refine ⟨asked, ?_, by omega⟩
    rintro rfl
    exact some (List.length_eq_zero_iff.mp length.symm)

theorem valid_asked {n : Nat} {vs : List Json} {inputs : List PersonInput} (spellable : ∀ v ∈ vs, Json.Spellable n v)
    (asked : List.Forall₂ Asks vs inputs) : ∀ i ∈ inputs, Utf8.valid i.name = true := by
  induction asked with
  | nil => exact fun _ none => (nomatch none)
  | cons asks _ ih =>
    rw [List.forall_mem_cons] at spellable ⊢
    exact ⟨valid_of_recordOfJson spellable.1 asks, ih spellable.2⟩

/-- The answer shows the record for an input. -/
def Answered (a : Answer) (i : PersonInput) : Prop :=
  a.status = 200 ∧ Json.parse a.body = some (shownRecord i.record)

/-- Texts that are answered one by one: all with records, or one as a bad request. -/
theorem answered_or_bad {texts : List Bytes} {vs : List Json} (single : Bytes → Answer)
    (spelled : List.Forall₂ Json.Text vs texts)
    (asking : ∀ b ∈ texts, ∀ v, Json.Text v b → ∀ i, Asks v i → Answered (single b) i)
    (other : ∀ b ∈ texts, ∀ v, Json.Text v b → (¬ ∃ i, Asks v i) → (single b).status = 400) :
    (∃ inputs, List.Forall₂ Asks vs inputs ∧ List.Forall₂ (fun b i => Answered (single b) i) texts inputs) ∨
      (¬ ∃ inputs, List.Forall₂ Asks vs inputs) ∧ ∃ b ∈ texts, (single b).status = 400 := by
  induction spelled with
  | nil => exact .inl ⟨[], .nil, .nil⟩
  | @cons v b vs texts text _ ih =>
    rw [List.forall_mem_cons] at asking other
    by_cases first : ∃ i, Asks v i
    · obtain ⟨i, asks⟩ := first
      rcases ih asking.2 other.2 with ⟨inputs, asked, answered⟩ | ⟨none, c, found, bad⟩
      · exact .inl ⟨i :: inputs, .cons asks asked, .cons (asking.1 v text i asks) answered⟩
      · refine .inr ⟨?_, c, List.mem_cons_of_mem b found, bad⟩
        rintro ⟨inputs, _ | ⟨_, later⟩⟩
        exact none ⟨_, later⟩
    · refine .inr ⟨?_, b, List.mem_cons_self, other.1 v text first⟩
      rintro ⟨inputs, _ | ⟨asks, _⟩⟩
      exact first ⟨_, asks⟩

theorem ok_of_answered {texts : List Bytes} {inputs : List PersonInput} {single : Bytes → Answer}
    (answered : List.Forall₂ (fun b i => Answered (single b) i) texts inputs) :
    ∀ b ∈ texts, (single b).status = 200 := by
  induction answered with
  | nil => exact fun _ none => (nomatch none)
  | cons first _ ih => exact List.forall_mem_cons.mpr ⟨first.1, ih⟩

theorem view_many (inputs : List PersonInput) :
    Json.get? "count" (batchView (inputs.map PersonInput.record)) = some (.ofInt inputs.length) ∧
      Json.get? "records" (batchView (inputs.map PersonInput.record)) =
        some (.array (inputs.map fun i => personView i.record)) := by
  have count : Json.get? "count" (batchView (inputs.map PersonInput.record)) =
      some (.ofInt (inputs.map PersonInput.record).length) := rfl
  have records : Json.get? "records" (batchView (inputs.map PersonInput.record)) =
      some (.array ((inputs.map PersonInput.record).map personView)) := rfl
  rw [count, records, List.length_map, List.map_map]
  exact ⟨rfl, rfl⟩

/-- A request to one of the endpoints that make records. -/
def post (headers : List (Bytes × Bytes)) (e : Endpoint) (body : Bytes) : Request :=
  ⟨utf8 "POST", utf8 e.path, headers, body⟩

theorem routePath_post (headers : List (Bytes × Bytes)) (e : Endpoint) (body : Bytes) :
    (post headers e body).routePath = utf8 e.path := by
  have same : (post headers e body).routePath = (post [] e []).routePath := rfl
  rw [same]
  cases e <;> decide

-- The headers alone decide whether a request is let in.
theorem admits_post {σ : Type} (H : Host σ) (headers : List (Bytes × Bytes)) (e : Endpoint) (body : Bytes) :
    H.admits (post headers e body) = H.admits (post headers .batch []) := rfl

namespace Order

theorem spellable_view {o : Order} (valid : ∀ i ∈ o.inputs, Utf8.valid i.name = true) (n : Nat) :
    Json.Spellable (n + 3) o.view := by
  have person : ∀ i ∈ o.inputs, ∀ k, Json.Spellable (k + 1) (personView i.record) := by
    intro i found k
    apply spellable_personView
    have fits := (Name.truncate_longestFit (valid i found)).fits
    rw [← Name.text_new (valid i found)] at fits
    exact fits.whole
  cases o with
  | one i => exact person i List.mem_cons_self (n + 2)
  | many inputs =>
    apply spellable_record
    simp only [List.forall_mem_cons, List.not_mem_nil, false_implies, implies_true, and_true]
    refine ⟨.number (Json.numberText_ofInt _), .array ?_⟩
    intro v found
    obtain ⟨p, made, rfl⟩ := List.mem_map.mp found
    obtain ⟨i, asked, rfl⟩ := List.mem_map.mp made
    exact person i asked n

/-- The answer to an order can be read back. -/
theorem parse_view {o : Order} (valid : ∀ i ∈ o.inputs, Utf8.valid i.name = true) :
    Json.parse (success o.view).body = some (.record [("success", .bool true), ("data", o.view)]) :=
  Json.parse_write Json.compact_blank (spellable_shown (o.spellable_view valid 9996))

end Order

namespace Host

variable {σ : Type} {A : Allocator σ} (apiKey : Bytes) (info : ApiInfo)

theorem fulfil_granted (id : Bytes) (m : Metrics) {storage : σ} {o : Order} (grants : A.Grants o.inputs.length storage) :
    ((hostOf A apiKey info).fulfil id m storage o).result = .ok (success o.view) := by
  cases o with
  | one i =>
    obtain ⟨t, granted, _⟩ := grants
    simp only [fulfil, hostOf, Maker.ofAllocator, Factory.create_granted granted]
    rfl
  | many inputs =>
    obtain ⟨t, made⟩ := Factory.createAll_granted inputs grants
    simp only [fulfil, hostOf, Maker.ofAllocator, made]
    rfl

variable {apiKey info}

/-- An order for which there is storage is answered with its records. -/
theorem serve_granted {r : Request} {o : Order} (ordered : (hostOf A apiKey info).order? r = some o)
    (valid : ∀ i ∈ o.inputs, Utf8.valid i.name = true) (fresh : Bytes) (s : HostState σ)
    (grants : A.Grants o.inputs.length s.storage) :
    ((hostOf A apiKey info).serve fresh r s).answer.status = 200 ∧
      Json.parse ((hostOf A apiKey info).serve fresh r s).answer.body =
        some (.record [("success", .bool true), ("data", o.view)]) := by
  obtain ⟨id, m, status, body, _⟩ := serve_ordered ordered fresh s
  have done := fulfil_granted apiKey info id m grants
  simp only [shown, done] at status body
  exact ⟨status, by rw [body]; exact o.parse_view valid⟩

variable {headers : List (Bytes × Bytes)} {v : Json} {b : Bytes}

theorem serve_post_rejected {e : Endpoint} {body : Bytes}
    (rejected : (hostOf A apiKey info).admits (post headers e body) = false) (fresh : Bytes) (s : HostState σ) :
    TurnedAway ((hostOf A apiKey info).serve fresh (post headers e body) s).answer.status := by
  have other : CrossOrigin.isPreflight (post headers e body) = false := rfl
  apply serve_api_unreached other (target?_rejected rejected)
  right
  rw [routePath_post]
  cases e <;> decide

theorem order?_post {e : Endpoint} {body : Bytes} (makes : e = .record ∨ e = .batch)
    (admitted : (hostOf A apiKey info).admits (post headers e body) = true) :
    (hostOf A apiKey info).target? (post headers e body) = some e ∧
      (hostOf A apiKey info).order? (post headers e body) =
        match e with
        | .record => (readOne body).toOption.map .one
        | .batch => (readMany body).toOption.map .many
        | _ => none := by
  have reached := target?_of_post makes rfl (routePath_post headers e body) admitted
  refine ⟨reached, ?_⟩
  rw [order?, reached]
  rcases makes with rfl | rfl <;> rfl

/-- A body that asks for a record is served with it, and any other text is a bad request. -/
theorem serve_single (admitted : (hostOf A apiKey info).admits (post headers .record b) = true) (text : Json.Text v b)
    (small : b.length ≤ maxBody) (fresh : Bytes) (s : HostState σ) (grants : A.Grants 1 s.storage) :
    (∀ i, Asks v i → Answered ((hostOf A apiKey info).serve fresh (post headers .record b) s).answer i) ∧
      ((¬ ∃ i, Asks v i) → ((hostOf A apiKey info).serve fresh (post headers .record b) s).answer.status = 400) := by
  obtain ⟨reached, order⟩ := order?_post (.inl rfl) admitted
  have read : ∀ i, readOne b = .ok i ↔ Asks v i := by
    intro i
    rw [readOne_eq_ok_iff, readBody_carried (carries_of_text text) small]
    rfl
  constructor
  · intro i asks
    rw [(read i).mpr asks] at order
    have valid : ∀ j ∈ (Order.one i).inputs, Utf8.valid j.name = true := by
      intro j found
      rw [List.mem_singleton.mp found]
      exact valid_of_recordOfJson text.spellable asks
    exact serve_granted order valid fresh s grants
  · intro none
    apply serve_unordered_status reached rfl
    cases wrong : readOne b with
    | error e => rw [order, wrong]; rfl
    | ok i => exact absurd ⟨i, (read i).mp wrong⟩ none

theorem serve_joined {texts : List Bytes} {vs : List Json} (flat : ∀ v ∈ vs, v.Flat)
    (spelled : List.Forall₂ Json.Text vs texts) (some : texts ≠ []) (few : texts.length ≤ maxBatch)
    (small : (Json.joined texts).length ≤ maxBody)
    (admitted : (hostOf A apiKey info).admits (post headers .batch (Json.joined texts)) = true) (fresh : Bytes)
    (s : HostState σ) (grants : A.Grants texts.length s.storage) :
    let r := post headers .batch (Json.joined texts)
    let a := ((hostOf A apiKey info).serve fresh r s).answer
    (∀ inputs, List.Forall₂ Asks vs inputs → a.status = 200 ∧
      Json.parse a.body = .some (.record [("success", .bool true), ("data", (Order.many inputs).view)])) ∧
    ((¬ ∃ inputs, List.Forall₂ Asks vs inputs) → a.status = 400 ∧ callsOf A apiKey info fresh r s = []) := by
  obtain ⟨reached, order⟩ := order?_post (.inr rfl) admitted
  have read := readMany_joined flat spelled some few small
  constructor
  · intro inputs asked
    rw [(read inputs).mpr asked] at order
    have length : inputs.length = texts.length := asked.length_eq.symm.trans spelled.length_eq
    rw [← length] at grants
    have spellable := (Json.text_joined flat spelled some).spellable
    cases spellable with
    | array items => exact serve_granted order (valid_asked items asked) fresh s grants
  · intro none
    have unordered : (hostOf A apiKey info).order? (post headers .batch (Json.joined texts)) = Option.none := by
      cases wrong : readMany (Json.joined texts) with
      | error e => rw [order, wrong]; rfl
      | ok inputs => exact absurd ⟨inputs, (read inputs).mp wrong⟩ none
    exact ⟨serve_unordered_status reached rfl unordered fresh s, callsOf_unordered unordered fresh s⟩

end Host

/-- A batch is answered as its entries are one by one. Where the entries are flat objects, at most a thousand, and there is
storage, the batch succeeds exactly if every entry alone does, and then shows the same records in the same order; one bad
entry makes a bad batch, without a call on the allocator. -/
theorem batch_answers_as_singles {σ : Type} (A : Allocator σ) (apiKey : Bytes) (info : ApiInfo) (fresh : Bytes)
    (headers : List (Bytes × Bytes)) (texts : List Bytes) (vs : List Json) (spelled : List.Forall₂ Json.Text vs texts)
    (flat : ∀ v ∈ vs, v.Flat) (some : texts ≠ []) (few : texts.length ≤ maxBatch)
    (small : (Json.joined texts).length ≤ maxBody) (s : HostState σ) (alone : Bytes → HostState σ)
    (grants : A.Grants texts.length s.storage) (each : ∀ b ∈ texts, A.Grants 1 (alone b).storage) :
    let r := post headers .batch (Json.joined texts)
    let batch := ((hostOf A apiKey info).serve fresh r s).answer
    let single b := ((hostOf A apiKey info).serve fresh (post headers .record b) (alone b)).answer
    (batch.status = 200 ↔ ∀ b ∈ texts, (single b).status = 200) ∧
    (batch.status = 200 → ∃ shown records, Json.parse batch.body = .some shown ∧
      (shown.get? "data").bind (Json.get? "count") = .some (.ofInt texts.length) ∧
      (shown.get? "data").bind (Json.get? "records") = .some (.array records) ∧
      List.Forall₂ (fun b d => ∃ v, Json.parse (single b).body = .some v ∧ v.get? "data" = .some d) texts records) ∧
    ((∃ b ∈ texts, (single b).status = 400) → batch.status = 400 ∧ callsOf A apiKey info fresh r s = []) := by
  intro r batch single
  have admits := admits_post (hostOf A apiKey info) headers
  cases admitted : (hostOf A apiKey info).admits (post headers .batch []) with
  | false =>
    rw [admitted] at admits
    have away : Host.TurnedAway batch.status := Host.serve_post_rejected (admits .batch _) fresh s
    have alike : ∀ b, Host.TurnedAway (single b).status :=
      fun b => Host.serve_post_rejected (admits .record b) fresh (alone b)
    have refused : ∀ n, Host.TurnedAway n → n ≠ 200 ∧ n ≠ 400 := by
      rintro n (rfl | rfl | rfl) <;> decide
    obtain ⟨b, found⟩ := List.exists_mem_of_ne_nil texts some
    refine ⟨?_, fun ok => absurd ok (refused _ away).1, ?_⟩
    · constructor
      · exact fun ok => absurd ok (refused _ away).1
      · exact fun all => absurd (all b found) (refused _ (alike b)).1
    · rintro ⟨c, _, bad⟩
      exact absurd bad (refused _ (alike c)).2
  | true =>
    rw [admitted] at admits
    have served := fun b (found : b ∈ texts) v (text : Json.Text v b) =>
      Host.serve_single (admits .record b) text ((Json.length_le_joined found).trans small) fresh (alone b) (each b found)
    obtain ⟨good, bad⟩ := Host.serve_joined flat spelled some few small (admits .batch _) fresh s grants
    rcases answered_or_bad single spelled (fun b found v text => (served b found v text).1)
      (fun b found v text => (served b found v text).2) with ⟨inputs, asked, answered⟩ | ⟨none, b, found, wrong⟩
    · obtain ⟨ok, parsed⟩ := good inputs asked
      have all := ok_of_answered answered
      obtain ⟨count, records⟩ := view_many inputs
      refine ⟨⟨fun _ => all, fun _ => ok⟩, fun _ => ?_, ?_⟩
      · refine ⟨_, _, parsed, ?_, records, ?_⟩
        · rw [answered.length_eq]
          exact count
        · rw [List.forall₂_map_right_iff]
          exact answered.imp fun b i shows => ⟨_, shows.2, rfl⟩
      · rintro ⟨b, found, wrong⟩
        exact absurd ((all b found).symm.trans wrong) (by decide)
    · refine ⟨?_, ?_, fun _ => bad none⟩
      · constructor
        · exact fun ok => absurd (ok.symm.trans (bad none).1) (by decide)
        · exact fun all => absurd ((all b found).symm.trans wrong) (by decide)
      · exact fun ok => absurd (ok.symm.trans (bad none).1) (by decide)

/-- Two entries, one with a name that is given twice and escaped, on a budget for both; each alone on a budget for one. -/
theorem batch_answers_as_singles_repeated :
    let texts := [utf8 "\x7b\"name\":\"A\",\"NAME\":\"B\\n\"\x7d", utf8 " \x7b\"age\":-7,\"name\":\"C\"\x7d\n"]
    let r := post [] .batch (Json.joined texts)
    let batch := ((hostOf Budget.allocator [] .default).serve [] r ⟨Budget.new 272, .new⟩).answer
    let single b := ((hostOf Budget.allocator [] .default).serve [] (post [] .record b) ⟨Budget.new 136, .new⟩).answer
    batch.status = 200 ∧ ∃ shown records, Json.parse batch.body = some shown ∧
      (shown.get? "data").bind (Json.get? "count") = some (.ofInt texts.length) ∧
      (shown.get? "data").bind (Json.get? "records") = some (.array records) ∧
      List.Forall₂ (fun b d => ∃ v, Json.parse (single b).body = some v ∧ v.get? "data" = some d) texts records := by
  intro texts
  have first : Json.parse (utf8 "\x7b\"name\":\"A\",\"NAME\":\"B\\n\"\x7d") =
      some (.record [("name", .string (utf8 "A")), ("NAME", .string (utf8 "B\n"))]) := by rfl
  have second : Json.parse (utf8 " \x7b\"age\":-7,\"name\":\"C\"\x7d\n") =
      some (.record [("age", .number (utf8 "-7")), ("name", .string (utf8 "C"))]) := by rfl
  have spelled : List.Forall₂ Json.Text
      [.record [("name", .string (utf8 "A")), ("NAME", .string (utf8 "B\n"))],
        .record [("age", .number (utf8 "-7")), ("name", .string (utf8 "C"))]] texts :=
    .cons ((Json.parse_eq_some_iff _ _).mp first) (.cons ((Json.parse_eq_some_iff _ _).mp second) .nil)
  have flat : ∀ v ∈ [Json.record [("name", .string (utf8 "A")), ("NAME", .string (utf8 "B\n"))],
      .record [("age", .number (utf8 "-7")), ("name", .string (utf8 "C"))]], v.Flat := by
    simp only [List.forall_mem_cons, List.not_mem_nil, false_implies, implies_true, and_true]
    constructor <;> exact ⟨_, rfl, by simp [Json.Scalar]⟩
  obtain ⟨iff_all, shows, _⟩ := batch_answers_as_singles Budget.allocator [] .default [] [] texts _ spelled flat (by decide) (by decide)
    (by decide) ⟨Budget.new 272, .new⟩ (fun _ => ⟨Budget.new 136, .new⟩) ⟨_, rfl, _, rfl, trivial⟩
    fun _ _ => ⟨_, rfl, trivial⟩
  have ok := iff_all.mpr (by
    simp only [texts, List.forall_mem_cons, List.not_mem_nil, false_implies, implies_true, and_true]
    exact ⟨by decide +kernel, by decide +kernel⟩)
  exact ⟨ok, shows ok⟩

end BoundedRecords.Api
