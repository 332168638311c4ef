import BoundedRecords.Proofs.Api.Release
import BoundedRecords.Proofs.Json.Texts

/-! Which bodies are accepted. A body for records has to be one JSON text, but what stands behind a closing
bracket is never looked at: a text followed by such a bracket passes for the text alone. -/
namespace BoundedRecords.Api

/-- A closing bracket, with anything behind it. -/
def Closing (tail : Bytes) : Prop := ∃ b more, (b = 0x5D ∨ b = 0x7D) ∧ tail = b :: more

/-- The body gives the value as one JSON text, if need be cut at a closing bracket. -/
def Carries (body : Bytes) (v : Json) : Prop :=
  ∃ t tail, Json.Text v t ∧ (tail = [] ∨ Closing tail) ∧ body = t ++ tail

/-- What may stand behind a value for the value to be recognised. -/
def Follows (rest : Bytes) : Prop := rest = [] ∨ ∃ b more, Json.Delimits b ∧ rest = b :: more

theorem follows_append {w tail : Bytes} (white : Json.White w) (ends : tail = [] ∨ Closing tail) :
    Follows (w ++ tail) := by
  cases w with
  | cons b w => exact .inr ⟨b, w ++ tail, .inl (white b List.mem_cons_self), rfl⟩
  | nil =>
    rcases ends with rfl | ⟨b, more, bracket, rfl⟩
    · exact .inl rfl
    · exact .inr ⟨b, more, .inr (.inr bracket), rfl⟩

theorem firstValue_begins {limit : Nat} {body rest : Bytes} {v : Json}
    (first : firstValue limit body = .ok (v, rest)) :
    ∃ t, Json.Begins v t ∧ body.take limit = t ++ rest := by
  unfold firstValue at first
  split at first
  · cases first
  · rename_i found
    cases first
    exact Json.run_start_begins found
  · rename_i r short
    split at first
    · cases first
    · split at first
      · rename_i ended
        cases first
        exact ⟨_, Json.begins_of_atEnd short ended, (List.append_nil _).symm⟩
      · cases first

theorem firstValue_of_begins {limit : Nat} {t rest : Bytes} {v : Json} (begins : Json.Begins v t)
    (follows : Follows rest) (fits : (t ++ rest).length ≤ limit) :
    firstValue limit (t ++ rest) = .ok (v, rest) := by
  unfold firstValue
  rw [List.take_of_length_le fits]
  rcases follows with rfl | ⟨b, more, delimits, rfl⟩
  · rw [List.append_nil] at fits ⊢
    rcases Json.run_begins_all begins with found | ⟨r, short, ended⟩
    · rw [found]
    · have all : ¬ limit < t.length := Nat.not_lt.mpr fits
      simp only [short, all, ended, if_false]
  · rw [Json.run_begins begins delimits more]

theorem acceptsRest_iff (more : Bool) (rest : Bytes) :
    acceptsRest more rest = true ↔
      ∃ w tail, Json.White w ∧ (tail = [] ∧ more = false ∨ Closing tail) ∧ rest = w ++ tail := by
  have split := List.takeWhile_append_dropWhile (p := Json.isSpace) (l := rest)
  have blank : Json.White (rest.takeWhile Json.isSpace) := List.all_eq_true.mp List.all_takeWhile
  constructor
  · intro accepted
    unfold acceptsRest at accepted
    refine ⟨rest.takeWhile Json.isSpace, rest.dropWhile Json.isSpace, blank, ?_, split.symm⟩
    split at accepted
    · rename_i none
      exact .inl ⟨none, by simpa using accepted⟩
    · rename_i b s found
      simp only [Bool.or_eq_true, beq_iff_eq] at accepted
      exact .inr ⟨b, s, accepted, found⟩
  · rintro ⟨w, tail, white, ends, rfl⟩
    unfold acceptsRest
    rw [List.dropWhile_append_of_pos white]
    rcases ends with ⟨rfl, rfl⟩ | ⟨b, s, bracket, rfl⟩
    · rfl
    · have solid : Json.isSpace b = false := by
        rcases bracket with rfl | rfl <;> decide
      simp only [List.dropWhile_cons, solid, Bool.false_eq_true, if_false]
      simpa using bracket

/-- Blanks are accepted unless something lies beyond the limit, whatever it is. -/
theorem acceptsRest_white (more : Bool) {w : Bytes} (white : Json.White w) : acceptsRest more w = !more := by
  have skipped : (w ++ []).dropWhile Json.isSpace = [] := List.dropWhile_append_of_pos white
  rw [List.append_nil] at skipped
  simp only [acceptsRest, skipped]

section

variable {α : Type} {decode : Json → Option α} {body : Bytes} {a : α}

theorem readBody_eq_ok_iff :
    readBody decode body = .ok a ↔
      ∃ v rest, firstValue maxBody body = .ok (v, rest) ∧ decode v = some a ∧
        acceptsRest (maxBody < body.length) rest = true := by
  unfold readBody
  cases firstValue maxBody body with
  | error e => simp [bind, Except.bind]
  | ok found =>
    obtain ⟨v, rest⟩ := found
    simp only [bind, Except.bind, Except.ok.injEq, Prod.mk.injEq]
    constructor
    · intro read
      split at read
      · cases read
      · rename_i decoded
        split at read
        · rename_i accepted
          cases read
          exact ⟨v, rest, ⟨rfl, rfl⟩, decoded, accepted⟩
        · cases read
    · rintro ⟨v', rest', ⟨rfl, rfl⟩, decoded, accepted⟩
      simp only [decoded, accepted, if_true]
      rfl

/-- A body of any length that is read carries the value: what lies beyond the limit is behind a closing
bracket. -/
theorem carries_of_readBody (read : readBody decode body = .ok a) : ∃ v, Carries body v ∧ decode v = some a := by
  obtain ⟨v, rest, first, decoded, accepted⟩ := readBody_eq_ok_iff.mp read
  obtain ⟨t, begins, taken⟩ := firstValue_begins first
  obtain ⟨w, tail, white, ends, rfl⟩ := (acceptsRest_iff _ _).mp accepted
  have body_eq : body = (t ++ w) ++ (tail ++ body.drop maxBody) := by
    conv_lhs => rw [← List.take_append_drop maxBody body, taken]
    simp only [List.append_assoc]
  refine ⟨v, ⟨t ++ w, tail ++ body.drop maxBody, ⟨t, w, begins, white, rfl⟩, ?_, body_eq⟩, decoded⟩
  rcases ends with ⟨rfl, whole⟩ | ⟨b, more, bracket, rfl⟩
  · have short : body.length ≤ maxBody := by simpa using whole
    exact .inl (List.drop_eq_nil_of_le short)
  · exact .inr ⟨b, more ++ body.drop maxBody, bracket, rfl⟩

theorem readBody_of_carries {v : Json} (carries : Carries body v) (small : body.length ≤ maxBody)
    (decoded : decode v = some a) : readBody decode body = .ok a := by
  obtain ⟨_, tail, ⟨t, w, begins, white, rfl⟩, ends, rfl⟩ := carries
  have whole : decide (maxBody < (t ++ w ++ tail).length) = false := by simpa using small
  rw [List.append_assoc] at small whole ⊢
  refine readBody_eq_ok_iff.mpr ⟨v, w ++ tail, ?_, decoded, ?_⟩
  · exact firstValue_of_begins begins (follows_append white ends) small
  · rw [whole]
    exact (acceptsRest_iff _ _).mpr ⟨w, tail, white, ends.imp_left (⟨·, rfl⟩), rfl⟩

end

/-- A bracket behind a text makes it no text any more. -/
theorem not_text_of_closing {v w : Json} {t tail : Bytes} (text : Json.Text v t) (closing : Closing tail) :
    ¬ Json.Text w (t ++ tail) := by
  obtain ⟨u, white, begins, blank, rfl⟩ := text
  rintro ⟨u', white', begins', blank', split⟩
  -- Both ways to take the bytes apart are what the reader finds.
  have first := firstValue_of_begins begins (follows_append blank (.inr closing)) (Nat.le_refl _)
  have second := firstValue_of_begins begins' (follows_append blank' (.inl rfl)) (Nat.le_refl _)
  rw [List.append_nil, ← split, List.append_assoc, first] at second
  simp only [Except.ok.injEq, Prod.mk.injEq] at second
  obtain ⟨b, more, bracket, rfl⟩ := closing
  have space : Json.isSpace b = true := blank' b (by rw [← second.2]; simp)
  rcases bracket with rfl | rfl <;> exact absurd space (by decide)

/-- The value orders records at an endpoint. -/
def Orders (v : Json) : Endpoint → Prop
  | .record => ∃ name age, recordOfJson v = some ⟨some name, age⟩
  | .batch => ∃ requests, recordsOfJson v = some requests ∧ requests ≠ [] ∧ requests.length ≤ maxBatch ∧
      ∀ q ∈ requests, q.name.isSome = true
  | _ => False

theorem readOne_eq_ok_iff (body : Bytes) (i : PersonInput) :
    readOne body = .ok i ↔ readBody recordOfJson body = .ok ⟨some i.name, i.age⟩ := by
  unfold readOne
  cases readBody recordOfJson body with
  | error e => simp
  | ok q =>
    obtain ⟨name, age⟩ := q
    obtain ⟨n, a⟩ := i
    cases name with
    | none => simp
    | some name => simp

theorem readMany_isOk_iff (body : Bytes) :
    (∃ inputs, readMany body = .ok inputs) ↔
      ∃ requests, readBody recordsOfJson body = .ok requests ∧ requests ≠ [] ∧ requests.length ≤ maxBatch ∧
        ∀ q ∈ requests, q.name.isSome = true := by
  constructor
  · rintro ⟨inputs, read⟩
    obtain ⟨decoded, some, few⟩ := (readMany_eq_ok_iff body inputs).mp read
    have named := (RecordRequest.all_named_iff _).mpr ⟨inputs, rfl⟩
    exact ⟨_, decoded, by simpa using some, by simpa using few, named⟩
  · rintro ⟨requests, decoded, some, few, named⟩
    obtain ⟨inputs, rfl⟩ := (RecordRequest.all_named_iff requests).mp named
    exact ⟨inputs, (readMany_eq_ok_iff body inputs).mpr ⟨decoded, by simpa using some, by simpa using few⟩⟩

namespace Host

variable {σ : Type}

/-- Where reading a body means decoding a value that it tells, something is ordered exactly if such a value orders it. -/
theorem order?_isSome_iff_of_readBody {H : Host σ} {r : Request} {e : Endpoint} (reached : H.target? r = some e)
    {tells : Json → Prop}
    (told : ∀ {α : Type} (decode : Json → Option α) (a : α),
      readBody decode r.body = .ok a ↔ ∃ v, tells v ∧ decode v = some a) :
    (∃ o, H.order? r = some o) ↔ ∃ v, tells v ∧ Orders v e := by
  unfold order?
  cases e with
  | health => simp [reached, Orders]
  | layout => simp [reached, Orders]
  | record =>
    simp only [reached]
    constructor
    · rintro ⟨o, ordered⟩
      cases read : readOne r.body with
      | error e => simp [read, Except.toOption] at ordered
      | ok i =>
        obtain ⟨v, given, decoded⟩ := (told _ _).mp ((readOne_eq_ok_iff _ _).mp read)
        exact ⟨v, given, i.name, i.age, decoded⟩
    · rintro ⟨v, given, name, age, decoded⟩
      have read := (readOne_eq_ok_iff r.body ⟨name, age⟩).mpr ((told _ _).mpr ⟨v, given, decoded⟩)
      exact ⟨.one ⟨name, age⟩, by rw [read]; rfl⟩
  | batch =>
    simp only [reached]
    constructor
    · rintro ⟨o, ordered⟩
      cases read : readMany r.body with
      | error e => simp [read, Except.toOption] at ordered
      | ok inputs =>
        obtain ⟨requests, body, rest⟩ := (readMany_isOk_iff _).mp ⟨inputs, read⟩
        obtain ⟨v, given, decoded⟩ := (told _ _).mp body
        exact ⟨v, given, requests, decoded, rest⟩
    · rintro ⟨v, given, requests, decoded, rest⟩
      obtain ⟨inputs, read⟩ :=
        (readMany_isOk_iff r.body).mpr ⟨requests, (told _ _).mpr ⟨v, given, decoded⟩, rest⟩
      exact ⟨.many inputs, by rw [read]; rfl⟩

theorem order?_isSome_iff {H : Host σ} {r : Request} {e : Endpoint} (reached : H.target? r = some e)
    (small : r.body.length ≤ maxBody) :
    (∃ o, H.order? r = some o) ↔ ∃ v, Carries r.body v ∧ Orders v e := by
  apply order?_isSome_iff_of_readBody reached
  intro α decode a
  constructor
  · exact carries_of_readBody
  · rintro ⟨v, carries, decoded⟩
    exact readBody_of_carries carries small decoded

theorem conclude_status {α : Type} (H : Host σ) (r : Request) (id : Bytes) (people : α → List Person)
    (view : α → Json) (m : Metrics) (outcome : Outcome σ α) :
    (shown r (H.conclude id people view m outcome)).status ≠ 400 := by
  cases outcome with
  | done made st =>
    change 200 ≠ 400
    decide
  | refused e st =>
    simp only [shown, conclude, refusal]
    split
    · change 503 ≠ 400
      decide
    · change 500 ≠ 400
      decide
  | broken f st =>
    simp only [shown, conclude, brokenOff]
    split <;> decide

/-- An order that is understood is never answered as a bad request. -/
theorem serve_ordered_status {H : Host σ} {r : Request} {o : Order} (ordered : H.order? r = some o)
    (fresh : Bytes) (s : HostState σ) : (H.serve fresh r s).answer.status ≠ 400 := by
  obtain ⟨id, m, status, _⟩ := serve_ordered ordered fresh s
  rw [status]
  cases o with
  | one i => exact conclude_status H r id _ _ m _
  | many inputs => exact conclude_status H r id _ _ m _

theorem serve_unordered_status {H : Host σ} {r : Request} {e : Endpoint} (reached : H.target? r = some e)
    (makes : e.method = "POST") (unordered : H.order? r = none) (fresh : Bytes) (s : HostState σ) :
    (H.serve fresh r s).answer.status = 400 := by
  obtain ⟨id, m, _, status, _⟩ := serve_reached reached fresh s
  obtain ⟨_, _, refused⟩ := handle_unordered reached unordered id ⟨s.storage, m⟩
  obtain ⟨a, result, bad⟩ := refused makes
  rw [status]
  simp only [shown, result, bad]

end Host

/-- A text that orders records, with a closing bracket and more bytes behind it. -/
def Surplus (body : Bytes) (e : Endpoint) : Prop :=
  ∃ v t tail, Json.Text v t ∧ Closing tail ∧ body = t ++ tail ∧ Orders v e

theorem carries_orders_iff (body : Bytes) (e : Endpoint) :
    (∃ v, Carries body v ∧ Orders v e) ↔ (∃ v, Json.Text v body ∧ Orders v e) ∨ Surplus body e := by
  constructor
  · rintro ⟨v, ⟨t, tail, text, rfl | closing, split⟩, orders⟩
    · rw [List.append_nil] at split
      exact .inl ⟨v, by rw [split]; exact text, orders⟩
    · exact .inr ⟨v, t, tail, text, closing, split, orders⟩
  · rintro (⟨v, text, orders⟩ | ⟨v, t, tail, text, closing, split, orders⟩)
    · exact ⟨v, ⟨body, [], text, .inl rfl, (List.append_nil _).symm⟩, orders⟩
    · exact ⟨v, ⟨t, tail, text, .inr closing, split⟩, orders⟩

theorem not_text_of_surplus {body : Bytes} {e : Endpoint} (surplus : Surplus body e) :
    ¬ ∃ v, Json.Text v body := by
  obtain ⟨v, t, tail, text, closing, rfl, _⟩ := surplus
  rintro ⟨w, whole⟩
  exact not_text_of_closing text closing whole

theorem target?_of_post {σ : Type} {H : Host σ} {r : Request} {e : Endpoint} (makes : e = .record ∨ e = .batch)
    (post : r.method = utf8 "POST") (path : r.routePath = utf8 e.path) (admitted : H.admits r = true) :
    H.target? r = some e := by
  have found := (Endpoint.at?_eq_some_iff r.routePath e).mpr path
  have other : CrossOrigin.isPreflight r = false := by
    have differs : (utf8 "POST" == utf8 "OPTIONS") = false := by decide
    simp only [CrossOrigin.isPreflight, post, differs, Bool.false_and]
  have method : (r.method == utf8 e.method) = true := by
    rw [post]
    rcases makes with rfl | rfl <;> decide
  simp only [Host.target?, other, found, Option.filter, method, admitted, Bool.and_self, Bool.false_eq_true,
    if_false, if_true]

/-- A request for records is refused as a bad one, without a call on the allocator, unless its body is a
JSON text that orders records, or such a text with a closing bracket behind it. So a body that is accepted
is one JSON text exactly where no bracket is left over. -/
theorem texts_alone_accepted_iff_no_surplus {σ : Type} (A : Allocator σ) (apiKey : Bytes) (info : ApiInfo)
    (fresh : Bytes) (r : Request) (s : HostState σ) (e : Endpoint) (makes : e = .record ∨ e = .batch)
    (post : r.method = utf8 "POST") (path : r.routePath = utf8 e.path)
    (admitted : apiKey = [] ∨ r.header "X-Api-Key" = apiKey) (small : r.body.length ≤ maxBody) :
    let status := ((hostOf A apiKey info).serve fresh r s).answer.status
    let calls := callsOf A apiKey info fresh r s
    (status ≠ 400 ↔ (∃ v, Json.Text v r.body ∧ Orders v e) ∨ Surplus r.body e) ∧
    (status = 400 → calls = []) ∧
    (((status ≠ 400 → ∃ v, Json.Text v r.body) ∧
        ((¬ ∃ v, Json.Text v r.body) → status = 400 ∧ calls = [])) ↔ ¬ Surplus r.body e) := by
  intro status calls
  have passes : (hostOf A apiKey info).admits r = true := by
    rcases admitted with rfl | key
    · rfl
    · simp only [Host.admits, hostOf, key, BEq.rfl, Bool.or_true]
  have reached := target?_of_post makes post path passes
  have posts : e.method = "POST" := by rcases makes with rfl | rfl <;> rfl
  have ordered_iff := (Host.order?_isSome_iff reached small).trans (carries_orders_iff r.body e)
  have accepted : status ≠ 400 ↔ (∃ v, Json.Text v r.body ∧ Orders v e) ∨ Surplus r.body e := by
    rw [← ordered_iff]
    cases ordered : (hostOf A apiKey info).order? r with
    | none => simp [status, Host.serve_unordered_status reached posts ordered fresh s]
    | some o => simp [status, Host.serve_ordered_status ordered fresh s]
  have silent : status = 400 → calls = [] := by
    intro bad
    cases ordered : (hostOf A apiKey info).order? r with
    | none => exact Host.callsOf_unordered ordered fresh s
    | some o => exact absurd bad (Host.serve_ordered_status ordered fresh s)
  refine ⟨accepted, silent, ?_, ?_⟩
  · rintro ⟨single, _⟩ surplus
    exact not_text_of_surplus surplus (single (accepted.mpr (.inr surplus)))
  · intro clean
    refine ⟨fun served => ?_, fun other => ?_⟩
    · rcases accepted.mp served with ⟨v, text, _⟩ | surplus
      · exact ⟨v, text⟩
      · exact absurd surplus clean
    · have bad : status = 400 := by
        by_contra served
        rcases accepted.mp served with ⟨v, text, _⟩ | surplus
        · exact other ⟨v, text⟩
        · exact clean surplus
      exact ⟨bad, silent bad⟩

theorem texts_alone_accepted_spaced :
    let r : Request := ⟨utf8 "POST", utf8 "/api/v1/records", [], utf8 " \x7b\"name\":\"A\"\x7d\n"⟩
    ¬ Surplus r.body .record ∧ ((hostOf Allocator.heap [] .default).serve [] r ⟨(), .new⟩).answer.status ≠ 400 := by
  intro r
  have text : Json.parse r.body = some (.record [("name", .string (utf8 "A"))]) := by rfl
  have exact_ := texts_alone_accepted_iff_no_surplus Allocator.heap [] .default [] r ⟨(), .new⟩ .record (.inl rfl)
    rfl (by decide) (.inl rfl) (by decide)
  have whole := (Json.parse_eq_some_iff _ _).mp text
  refine ⟨fun surplus => not_text_of_surplus surplus ⟨_, whole⟩, ?_⟩
  exact exact_.1.mpr (.inl ⟨_, whole, utf8 "A", 0, by decide⟩)

/-- A record followed by a bracket that nothing opened is made, though the body is no JSON text. -/
theorem stray_bracket_accepted :
    let r : Request := ⟨utf8 "POST", utf8 "/api/v1/records", [], utf8 "\x7b\"name\":\"A\"\x7d]"⟩
    ((hostOf Budget.allocator [] .default).serve [] r ⟨Budget.new 1000, .new⟩).answer.status = 200 ∧
      callsOf Budget.allocator [] .default [] r ⟨Budget.new 1000, .new⟩ = servedCalls 1 ∧
      ¬ ∃ v, Json.Text v r.body := by
  intro r
  refine ⟨by decide +kernel, by decide +kernel, ?_⟩
  rintro ⟨v, text⟩
  have none : (Json.parse r.body).isNone = true := by decide +kernel
  rw [(Json.parse_eq_some_iff _ _).mpr text] at none
  cases none

end BoundedRecords.Api
