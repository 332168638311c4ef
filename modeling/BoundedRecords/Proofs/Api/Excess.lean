import BoundedRecords.Proofs.Api.Ledger

/-! Bodies beyond the limit. Such a body is refused because a value that needs more bytes is never complete, and because
blanks up to the limit do not count as the end. A closing bracket within the limit does, so that what lies behind it may
be of any length. -/
namespace BoundedRecords.Api

/-- The bytes within the limit are a text of the value with a closing bracket behind it. -/
def Shields (body : Bytes) (v : Json) : Prop :=
  ∃ t tail, Json.Text v t ∧ Closing tail ∧ body.take maxBody = t ++ tail

section

variable {α : Type} {decode : Json → Option α} {body : Bytes} {a : α}

theorem firstValue_of_cut {limit : Nat} {t rest : Bytes} {b : UInt8} {v : Json} (begins : Json.Begins v t)
    (delimits : Json.Delimits b) (taken : body.take limit = t ++ b :: rest) :
    firstValue limit body = .ok (v, b :: rest) := by
  unfold firstValue
  rw [taken, Json.run_begins begins delimits rest]

theorem shields_of_readBody (large : maxBody < body.length) (read : readBody decode body = .ok a) :
    ∃ v, Shields body v ∧ decode v = some a := by
  obtain ⟨v, rest, first, decoded, accepted⟩ := readBody_eq_ok_iff.mp read
  obtain ⟨t, begins, taken⟩ := firstValue_begins first
  rw [decide_eq_true large] at accepted
  obtain ⟨w, tail, white, ⟨_, impossible⟩ | closing, rfl⟩ := (acceptsRest_iff true rest).mp accepted
  · cases impossible
  · rw [← List.append_assoc] at taken
    exact ⟨v, ⟨t ++ w, tail, ⟨t, w, begins, white, rfl⟩, closing, taken⟩, decoded⟩

theorem readBody_of_shields {v : Json} (shields : Shields body v) (decoded : decode v = some a) :
    readBody decode body = .ok a := by
  obtain ⟨_, tail, ⟨t, w, begins, white, rfl⟩, closing, taken⟩ := shields
  rw [List.append_assoc] at taken
  have accepted := (acceptsRest_iff (maxBody < body.length) (w ++ tail)).mpr ⟨w, tail, white, .inr closing, rfl⟩
  refine readBody_eq_ok_iff.mpr ⟨v, w ++ tail, ?_, decoded, accepted⟩
  -- The bracket, or a blank before it, ends the value within the limit.
  rcases follows_append white (.inr closing) with none | ⟨b, more, delimits, split⟩
  · obtain ⟨b, more, _, rfl⟩ := closing
    exact absurd none (by simp)
  · rw [split] at taken ⊢
    exact firstValue_of_cut begins delimits taken

/-- Blanks behind a text hide nothing: where they go beyond the limit, the body is refused. -/
theorem readBody_blanks_beyond {v : Json} {t w : Bytes} (text : Json.Text v t) (white : Json.White w)
    (room : t.length < maxBody) (large : maxBody < (t ++ w).length) (decoded : decode v = some a) :
    readBody decode (t ++ w) = .error .trailing := by
  obtain ⟨t, blank, begins, before, rfl⟩ := text
  rw [List.append_assoc] at large ⊢
  rw [List.length_append] at room
  -- Within the limit, the value is followed by blanks and by nothing else.
  have after : Json.White ((blank ++ w).take (maxBody - t.length)) :=
    fun b found => Json.white_append before white b (List.mem_of_mem_take found)
  have taken : (t ++ (blank ++ w)).take maxBody = t ++ (blank ++ w).take (maxBody - t.length) := by
    rw [List.take_append, List.take_of_length_le (by omega)]
  have refused := acceptsRest_white true after
  cases ahead : (blank ++ w).take (maxBody - t.length) with
  | nil =>
    rcases List.take_eq_nil_iff.mp ahead with full | none
    · omega
    · rw [none, List.append_nil] at large
      omega
  | cons b rest =>
    rw [ahead] at after taken refused
    have first := firstValue_of_cut begins (.inl (after b List.mem_cons_self)) taken
    simp only [readBody, first, bind, Except.bind, decoded, decide_eq_true large, refused, Bool.not_true,
      Bool.false_eq_true, if_false]
    rfl

example : readOne (utf8 "\x7b\"name\":\"A\"\x7d" ++ List.replicate maxBody 0x20) = .error (.body .trailing) := by
  have text : Json.Text (.record [("name", .string (utf8 "A"))]) (utf8 "\x7b\"name\":\"A\"\x7d") :=
    (Json.parse_eq_some_iff _ _).mp rfl
  have white : Json.White (List.replicate maxBody 0x20) := by
    intro b found
    rw [List.eq_of_mem_replicate found]
    decide
  have large : maxBody < (utf8 "\x7b\"name\":\"A\"\x7d" ++ List.replicate maxBody 0x20).length := by
    rw [List.length_append, List.length_replicate]
    exact Nat.lt_add_of_pos_left (by decide)
  have read : recordOfJson (.record [("name", .string (utf8 "A"))]) = some ⟨some (utf8 "A"), 0⟩ := rfl
  rw [readOne, readBody_blanks_beyond text white (by decide) large read]

end

theorem shields_orders_iff (body : Bytes) (e : Endpoint) :
    (∃ v, Shields body v ∧ Orders v e) ↔ Surplus (body.take maxBody) e := by
  constructor
  · rintro ⟨v, ⟨t, tail, text, closing, taken⟩, orders⟩
    exact ⟨v, t, tail, text, closing, taken, orders⟩
  · rintro ⟨v, t, tail, text, closing, taken, orders⟩
    exact ⟨v, ⟨t, tail, text, closing, taken⟩, orders⟩

theorem Host.order?_isSome_iff_surplus {σ : Type} {H : Host σ} {r : Request} {e : Endpoint}
    (reached : H.target? r = some e) (large : maxBody < r.body.length) :
    (∃ o, H.order? r = some o) ↔ Surplus (r.body.take maxBody) e := by
  rw [← shields_orders_iff]
  apply order?_isSome_iff_of_readBody reached
  intro α decode a
  constructor
  · exact shields_of_readBody large
  · rintro ⟨v, shields, decoded⟩
    exact readBody_of_shields shields decoded

theorem admits_of_authorised {σ : Type} {A : Allocator σ} {apiKey : Bytes} {info : ApiInfo} {r : Request}
    (authorised : apiKey = [] ∨ r.header "X-Api-Key" = apiKey) : (hostOf A apiKey info).admits r = true := by
  rcases authorised with rfl | key
  · rfl
  · simp only [Host.admits, hostOf, key, BEq.rfl, Bool.or_true]

/-- The limit is enforced on a body that exceeds it, with no call on the allocator and nothing counted, exactly if
the bytes within the limit are not a text that orders records with a closing bracket behind it. -/
theorem limit_enforced_iff_no_surplus {σ : Type} (A : Allocator σ) (apiKey : Bytes) (info : ApiInfo) (fresh : Bytes)
    (r : Request) (s : HostState σ) (e : Endpoint) (makes : e = .record ∨ e = .batch) (post : r.method = utf8 "POST")
    (path : r.routePath = utf8 e.path) (authorised : apiKey = [] ∨ r.header "X-Api-Key" = apiKey)
    (large : maxBody < r.body.length) :
    let x := (hostOf A apiKey info).serve fresh r s
    (x.answer.status = 400 ∧ callsOf A apiKey info fresh r s = [] ∧ x.state.metrics.created = s.metrics.created) ↔
      ¬ Surplus (r.body.take maxBody) e := by
  intro x
  have reached := target?_of_post (H := hostOf A apiKey info) makes post path (admits_of_authorised authorised)
  have posts : e.method = "POST" := by rcases makes with rfl | rfl <;> rfl
  have ordered_iff := Host.order?_isSome_iff_surplus reached large
  constructor
  · rintro ⟨bad, _⟩ surplus
    obtain ⟨o, ordered⟩ := ordered_iff.mpr surplus
    exact Host.serve_ordered_status ordered fresh s bad
  · intro clean
    have unordered : (hostOf A apiKey info).order? r = none := by
      rw [← Option.not_isSome_iff_eq_none, Option.isSome_iff_exists, ordered_iff]
      exact clean
    refine ⟨?_, ?_, ?_⟩
    · exact Host.serve_unordered_status reached posts unordered fresh s
    · exact Host.callsOf_unordered unordered fresh s
    · exact Host.serve_unordered_created unordered fresh s

/-- One blank more than may be read. -/
theorem limit_enforced_blanks :
    let r : Request := ⟨utf8 "POST", utf8 "/api/v1/records/batch", [], List.replicate (maxBody + 1) 0x20⟩
    let x := (hostOf Budget.allocator [] .default).serve [] r ⟨Budget.new 1000, .new⟩
    x.answer.status = 400 ∧ callsOf Budget.allocator [] .default [] r ⟨Budget.new 1000, .new⟩ = [] ∧
      x.state.metrics.created = [] := by
  intro r x
  have large : maxBody < r.body.length := by
    rw [List.length_replicate]
    exact Nat.lt_succ_self maxBody
  apply (limit_enforced_iff_no_surplus Budget.allocator [] .default [] r ⟨Budget.new 1000, .new⟩ .batch (.inr rfl) rfl
    (by decide) (.inl rfl) large).mpr
  rintro ⟨v, t, tail, _, ⟨b, more, bracket, rfl⟩, taken, _⟩
  have found : b ∈ r.body.take maxBody := by
    rw [taken]
    exact List.mem_append_right t List.mem_cons_self
  rw [List.eq_of_mem_replicate (List.mem_of_mem_take found)] at bracket
  exact absurd bracket (by decide)

/-- A record with a closing bracket behind it is made, whatever else is sent. -/
theorem excess_behind_bracket_accepted :
    let r : Request := ⟨utf8 "POST", utf8 "/api/v1/records", [],
      utf8 "\x7b\"name\":\"A\"\x7d]" ++ List.replicate maxBody 0x78⟩
    maxBody < r.body.length ∧
      ((hostOf Budget.allocator [] .default).serve [] r ⟨Budget.new 1000, .new⟩).answer.status = 200 ∧
      callsOf Budget.allocator [] .default [] r ⟨Budget.new 1000, .new⟩ = servedCalls 1 := by
  intro r
  refine ⟨?_, by decide +kernel, by decide +kernel⟩
  rw [List.length_append, List.length_replicate]
  exact Nat.lt_add_of_pos_left (by decide)

end BoundedRecords.Api
