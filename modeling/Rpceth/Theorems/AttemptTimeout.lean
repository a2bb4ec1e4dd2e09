import Rpceth.Theorems.RequestLoop

/-! What the timeout of an attempt covers. It is over the call that returns with the head of the response, and
    the body is read after it. -/

namespace Rpceth
open Lib

/-- When the transfer of a body ends, counted from the head, if it does. -/
def UpstreamBody.ends : UpstreamBody → Option Duration
  | .never => none
  | .failed after _ => some after
  | .complete after _ => some after

namespace Exchange

/-- A whole response with a status of success has arrived by then. -/
def CompleteBy (x : Exchange) (limit : Duration) (response : ProviderResponse) : Prop :=
  ∃ at_ after, x.head = .arrived at_ response.status response.headers ∧ response.status.isSuccess = true ∧
    x.body = .complete after response.body ∧ at_ + after ≤ limit

/-- The head of a success arrives by then, and the transfer of its body does not end by then. -/
def StallsInBody (x : Exchange) (limit : Duration) : Prop :=
  ∃ at_ status headers, x.head = .arrived at_ status headers ∧ at_ ≤ limit ∧ status.isSuccess = true ∧
    ∀ after ∈ x.body.ends, limit < at_ + after

/-- The call returns by then, with a response exactly if the whole of it has arrived. -/
def Covered (x : Exchange) (limit : Duration) : Prop :=
  ∃ t result, forwardToProvider x limit = some (t, result) ∧ t ≤ limit ∧
    ∀ response, result = .ok response ↔ x.CompleteBy limit response

/-- An attempt on a provider with this exchange and this timeout reports a failure of it to the breaker, unless the
    whole response has arrived in time. -/
def Reported (x : Exchange) (limit : Duration) : Prop :=
  ∀ (tower : Tower) env chain byId ctx (policy : MethodPolicy) maxAttempts remaining (st : LoopState tower)
    (provider : ProviderHandle) n,
    selectProvider env chain byId ctx st.tried policy st.reading = (some provider, n) →
    env.upstream n provider = x → max provider.timeout policy.timeout = limit →
    (¬∃ response, x.CompleteBy limit response) → Event.onFailure provider.id ∈
      (attempts tower env chain byId ctx policy maxAttempts (remaining + 1) st).trace

variable {x : Exchange} {limit : Duration}

theorem CompleteBy.unique {r r' : ProviderResponse} (h : x.CompleteBy limit r) (h' : x.CompleteBy limit r') :
    r = r' := by
  obtain ⟨_, _, hhead, -, hbody, -⟩ := h
  obtain ⟨_, _, hhead', -, hbody', -⟩ := h'
  rw [hhead] at hhead'
  rw [hbody] at hbody'
  obtain ⟨-, hstatus, hheaders⟩ := UpstreamHead.arrived.inj hhead'
  obtain ⟨-, hdata⟩ := UpstreamBody.complete.inj hbody'
  cases r
  cases r'
  cases hstatus
  cases hheaders
  cases hdata
  rfl

/-- Unless it stalls in the body, the call returns in time: with the response if the whole of it has arrived, and
    with an error otherwise. -/
theorem forward_of_not_stalls (h : ¬x.StallsInBody limit) : ∃ t ≤ limit,
    (∃ response, x.CompleteBy limit response ∧ forwardToProvider x limit = some (t, .ok response)) ∨
    (¬∃ response, x.CompleteBy limit response) ∧ ∃ message, forwardToProvider x limit = some (t, .error message) := by
  obtain ⟨head, body⟩ := x
  rcases head with _ | ⟨at_, message⟩ | ⟨at_, status, headers⟩
  · refine ⟨limit, Nat.le_refl _, .inr ⟨?_, _, rfl⟩⟩
    rintro ⟨response, _, _, hhead, -⟩
    cases hhead
  · have hno : ¬∃ response, CompleteBy ⟨.failed at_ message, body⟩ limit response := by
      rintro ⟨response, _, _, hhead, -⟩
      cases hhead
    by_cases hle : at_ ≤ limit
    · exact ⟨at_, hle, .inr ⟨hno, message, if_pos hle⟩⟩
    · exact ⟨limit, Nat.le_refl _, .inr ⟨hno, _, if_neg hle⟩⟩
  by_cases hle : at_ ≤ limit
  · by_cases hstatus : status.isSuccess = true
    · -- Both a complete and a broken transfer end in time, since it does not stall.
      have hends : ∃ after ∈ body.ends, at_ + after ≤ limit := by
        by_contra hlate
        refine h ⟨at_, status, headers, rfl, hle, hstatus, fun after hafter => ?_⟩
        exact Nat.lt_of_not_le fun hin => hlate ⟨after, hafter, hin⟩
      obtain ⟨after, hafter, hin⟩ := hends
      rcases body with _ | ⟨after', message⟩ | ⟨after', data⟩
      · cases hafter
      · cases hafter
        refine ⟨_, hin, .inr ⟨?_, message, by simp [forwardToProvider, hle, hstatus]⟩⟩
        rintro ⟨response, _, _, -, -, hbody, -⟩
        cases hbody
      · cases hafter
        exact ⟨_, hin, .inl ⟨⟨status, headers, data⟩, ⟨_, _, rfl, hstatus, rfl, hin⟩,
          by simp [forwardToProvider, hle, hstatus]⟩⟩
    · refine ⟨at_, hle, .inr ⟨?_, _, by simp [forwardToProvider, hle, hstatus]; rfl⟩⟩
      rintro ⟨response, _, _, hhead, hsuccess, -⟩
      cases hhead
      exact hstatus hsuccess
  · refine ⟨limit, Nat.le_refl _, .inr ⟨?_, _, if_neg hle⟩⟩
    rintro ⟨response, _, _, hhead, -, -, hin⟩
    cases hhead
    exact hle (Nat.le_trans (Nat.le_add_right _ _) hin)

theorem covered_of_not_stalls (h : ¬x.StallsInBody limit) : x.Covered limit := by
  obtain ⟨t, ht, ⟨response, hcomplete, hforward⟩ | ⟨hno, message, hforward⟩⟩ := forward_of_not_stalls h
  · refine ⟨t, _, hforward, ht, fun r => ?_⟩
    constructor
    · intro hr
      cases hr
      exact hcomplete
    · intro hr
      rw [hcomplete.unique hr]
  · refine ⟨t, _, hforward, ht, fun r => ?_⟩
    constructor
    · intro hr
      cases hr
    · intro hr
      exact absurd ⟨r, hr⟩ hno

theorem reported_of_not_stalls (h : ¬x.StallsInBody limit) : x.Reported limit := by
  intro tower env chain byId ctx policy maxAttempts remaining st provider n hsel hexchange htimeout hno
  obtain ⟨t, -, ⟨response, hcomplete, -⟩ | ⟨-, message, hforward⟩⟩ := forward_of_not_stalls h
  · exact absurd ⟨response, hcomplete⟩ hno
  · rw [← hexchange, ← htimeout] at hforward
    rw [attempts, hsel]
    simp [hforward]

/-- A transfer that stalls returns late, or never. -/
theorem not_covered_of_stalls (h : x.StallsInBody limit) : ¬x.Covered limit := by
  obtain ⟨head, body⟩ := x
  obtain ⟨at_, status, headers, hhead, hle, hstatus, hlate⟩ := h
  obtain rfl : head = _ := hhead
  rintro ⟨t, result, hforward, ht, -⟩
  rcases body with _ | ⟨after, message⟩ | ⟨after, data⟩ <;> simp [forwardToProvider, hle, hstatus] at hforward
  · exact absurd (hforward.1 ▸ ht) (Nat.not_le.mpr (hlate after rfl))
  · exact absurd (hforward.1 ▸ ht) (Nat.not_le.mpr (hlate after rfl))

end Exchange

/-- A call returns within its timeout, with a response exactly if the whole of it has arrived by then, and an
    attempt without one is reported as a failure, exactly if the upstream does not stall in the body of a success. -/
theorem covered_iff (x : Exchange) (limit : Duration) :
    x.Covered limit ∧ x.Reported limit ↔ ¬x.StallsInBody limit := by
  constructor
  · rintro ⟨hcovered, -⟩ hstalls
    exact Exchange.not_covered_of_stalls hstalls hcovered
  · intro h
    exact ⟨Exchange.covered_of_not_stalls h, Exchange.reported_of_not_stalls h⟩

/-- The head is there at once, and the body never. -/
theorem not_always_covered : ¬∀ (x : Exchange) limit, x.Covered limit := by
  intro h
  refine Exchange.not_covered_of_stalls ⟨0, ⟨200, "200 OK"⟩, [], rfl, Nat.zero_le _, rfl, ?_⟩
    (h ⟨.arrived 0 ⟨200, "200 OK"⟩ [], .never⟩ (Duration.fromMillis 5000))
  intro after hafter
  cases hafter

end Rpceth
