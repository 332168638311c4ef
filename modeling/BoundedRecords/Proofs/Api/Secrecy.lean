import BoundedRecords.Proofs.Api.Watching

/-! The key stays secret. A host asks of its key only whether there is one and whether a request brought it; nothing
else of it shows in an answer, the log, the counters or the storage. -/
namespace BoundedRecords.Api

/-- The request tells the two keys from each other neither by their presence nor by the key it brings. -/
structure Request.Alike (r : Request) (k k' : Bytes) : Prop where
  present : k.isEmpty = k'.isEmpty
  compared : (r.header "X-Api-Key" == k) = (r.header "X-Api-Key" == k')

theorem Request.alike_of_wrong {r : Request} {k k' : Bytes} (keyed : k ≠ [] ∧ k' ≠ [])
    (wrong : r.header "X-Api-Key" ≠ k ∧ r.header "X-Api-Key" ≠ k') : r.Alike k k' := by
  constructor
  · rw [List.isEmpty_eq_false_iff.mpr keyed.1, List.isEmpty_eq_false_iff.mpr keyed.2]
  · rw [beq_eq_false_iff_ne.mpr wrong.1, beq_eq_false_iff_ne.mpr wrong.2]

namespace Host

variable {σ : Type}

/-- The same host with another key. -/
def withKey (H : Host σ) (key : Bytes) : Host σ := { H with apiKey := key }

variable (H : Host σ) {r : Request} {k k' : Bytes}

/-! Behind the guard the key is not looked at. -/

theorem handle_withKey (e : Endpoint) (id body : Bytes) : e.handle (H.withKey k) id body = e.handle H id body := by
  cases e <;> rfl

theorem dispatch_withKey (id : Bytes) (s : HostState σ) : (H.withKey k).dispatch id r s = H.dispatch id r s := by
  simp only [dispatch, Endpoint.serve, handle_withKey]

theorem checked_alike (alike : r.Alike k k') (inner : HostState σ → Handled σ) :
    (H.withKey k).checked (r.header "X-Api-Key") inner = (H.withKey k').checked (r.header "X-Api-Key") inner := by
  have compared : (r.header "X-Api-Key" == (H.withKey k).apiKey) = (r.header "X-Api-Key" == (H.withKey k').apiKey) :=
    alike.compared
  funext s
  simp only [checked, compared]

theorem guarded_alike (alike : r.Alike k k') (inner : HostState σ → Handled σ) (s : HostState σ) :
    (H.withKey k).guarded r inner s = (H.withKey k').guarded r inner s := by
  have present : (H.withKey k).apiKey.isEmpty = (H.withKey k').apiKey.isEmpty := alike.present
  simp only [guarded, present, checked_alike H alike]

theorem route_alike (alike : r.Alike k k') (id : Bytes) (s : HostState σ) :
    (H.withKey k).route id r s = (H.withKey k').route id r s := by
  have same : (H.withKey k).dispatch id r = (H.withKey k').dispatch id r := by
    funext s
    rw [dispatch_withKey, dispatch_withKey]
  have guarded : (H.withKey k).guarded r ((H.withKey k).dispatch id r) s =
      (H.withKey k').guarded r ((H.withKey k').dispatch id r) s := by
    rw [guarded_alike H alike, same]
  have described : (H.withKey k).describe r.path s = (H.withKey k').describe r.path s := rfl
  simp only [route, guarded, described]

theorem serve_alike (alike : r.Alike k k') (fresh : Bytes) (s : HostState σ) :
    (H.withKey k).serve fresh r s = (H.withKey k').serve fresh r s := by
  simp only [serve, respond, route_alike H alike]

/-- Whole runs: two keys that no request tells from each other give the same exchanges. -/
theorem serveAll_alike {requests : List (Bytes × Request)} (alike : ∀ x ∈ requests, x.2.Alike k k') (s : HostState σ) :
    (H.withKey k).serveAll s requests = (H.withKey k').serveAll s requests := by
  induction requests generalizing s with
  | nil => rfl
  | cons x requests ih =>
    obtain ⟨fresh, r⟩ := x
    rw [List.forall_mem_cons] at alike
    simp only [serveAll, serve_alike H alike.1, ih alike.2]

end Host

/-- Nobody learns more of the key of a host than that a guess was wrong. With any other key, requests that bring neither are
answered the same, header by header and byte by byte, are logged the same, and leave the same counters and the same
storage, each in turn. -/
theorem exchanges_hide_key {σ : Type} (H : Host σ) (k k' : Bytes) (keyed : k ≠ [] ∧ k' ≠ []) (s : HostState σ)
    (requests : List (Bytes × Request))
    (wrong : ∀ x ∈ requests, x.2.header "X-Api-Key" ≠ k ∧ x.2.header "X-Api-Key" ≠ k') :
    (H.withKey k).serveAll s requests = (H.withKey k').serveAll s requests := by
  apply Host.serveAll_alike
  intro x found
  exact Request.alike_of_wrong keyed (wrong x found)

/-- A guess that begins like one of the keys, one that comes before the key itself, no key, and a look at what the counters
tell of them. -/
theorem exchanges_hide_key_guesses :
    let H := hostOf Budget.allocator [] .default
    let requests : List (Bytes × Request) := [
      (utf8 "1", ⟨utf8 "POST", utf8 "/api/v1/records", [(utf8 "X-API-Key", utf8 "secre")], utf8 "\x7b\"name\":\"A\"\x7d"⟩),
      (utf8 "2", ⟨utf8 "GET", utf8 "/api/v1/layout",
        [(utf8 "x-api-key", utf8 "guess"), (utf8 "X-API-Key", utf8 "secret")], []⟩),
      (utf8 "3", ⟨utf8 "GET", utf8 "/api/v1/health", [], []⟩),
      (utf8 "4", ⟨utf8 "GET", utf8 "/metrics", [], []⟩)]
    let s : HostState Budget := .new (Budget.new 1000)
    (H.withKey (utf8 "secret")).serveAll s requests = (H.withKey (utf8 "k")).serveAll s requests ∧
      ((H.withKey (utf8 "secret")).serveAll s requests).map (·.answer.status) = [401, 401, 401, 200] := by
  intro H requests s
  refine ⟨?_, by decide +kernel⟩
  apply exchanges_hide_key H _ _ (by decide)
  decide +kernel

end BoundedRecords.Api
