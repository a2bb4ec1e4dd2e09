import Rpceth.Theorems.TaskAttempts

/-! The work of a request is bounded by its budget and the size of its chain, however the other requests run beside
    it, and it only ever waits for an upstream node. -/

namespace Rpceth
open Lib Program

/-! ### The bound -/

section
variable {β : Type} {key : ChainKey} {chain : ChainRuntime} {byId : HashMap ProviderId ProviderHandle}
  {ctx : RequestContext} {policy : MethodPolicy} {n : Nat}

theorem within_ask {a : Access} {f : a.Answer → ChainTask β} :
    ((Tasks.ask key a).bind f).Within (n + 1) ↔ ∀ x, (f x).Within n := Iff.rfl

theorem readHealth_within (health : HealthService) :
    (Tasks.readHealth key health).Within health.state.keys.length := by
  have hentries := Within.forEach (f := Tasks.readEntry key) (n := 1)
    (fun p => within_ask.mpr fun _ => within_done _ 0) health.state.keys
  rw [Nat.mul_one] at hentries
  exact Within.bind hentries (n := 0) fun _ => within_done _ _

/-- The map is read three times at most. -/
theorem healthFilter_within (lb : LoadBalancer) (p : Option MethodPolicy) :
    (Tasks.healthFilter key lb p).Within (3 * lb.healthIds.card) := by
  unfold Tasks.healthFilter
  split
  · rename_i health hhealth
    have hcard : 3 * lb.healthIds.card =
        health.state.keys.length + (health.state.keys.length + health.state.keys.length) := by
      rw [LoadBalancer.healthIds, hhealth, Option.elim_some, List.toFinset_card_of_nodup health.state.keys_nodup]
      omega
    rw [hcard]
    refine Within.bind (readHealth_within health) fun atBest => ?_
    refine Within.bind (readHealth_within health) fun atSnapshots => ?_
    dsimp only
    split
    · exact within_done _ _
    · exact Within.bind (readHealth_within health) (n := 0) fun _ => within_done _ _
  · exact within_done _ _

theorem nextRoundRobinFiltered_within (lb : LoadBalancer) (eligible : List ProviderHandle) :
    (Tasks.nextRoundRobinFiltered key lb eligible).Within 1 := by
  unfold Tasks.nextRoundRobinFiltered
  split
  · exact within_done _ _
  · exact within_ask.mpr fun _ => within_done _ _

theorem weightedRandomFrom_within (eligible : List ProviderHandle)
    (scores : HashMap ProviderId ProviderHealthSnapshot) (p : Option MethodPolicy) :
    (Tasks.weightedRandomFrom key eligible scores p).Within 1 := by
  unfold Tasks.weightedRandomFrom
  split
  · exact within_done _ _
  · exact within_done _ _
  · exact within_ask.mpr fun _ => within_done _ _

/-- What one selection may take: the readings of the map, and a lock. -/
def LoadBalancer.selectionWork (lb : LoadBalancer) : Nat := 3 * lb.healthIds.card + 1

theorem select_within (lb : LoadBalancer) (excluded : Finset ProviderId) (p : Option MethodPolicy) :
    (Tasks.select key lb excluded p).Within lb.selectionWork := by
  unfold Tasks.select
  refine Within.bind (healthFilter_within lb p) (n := 1) fun filter => ?_
  dsimp only
  split
  · exact within_done _ _
  · split
    · exact Within.bind (nextRoundRobinFiltered_within lb _) (n := 0) fun _ => within_done _ _
    · exact Within.bind (weightedRandomFrom_within _ _ _) (n := 0) fun _ => within_done _ _

/-- What the search for an available provider may take: a check after each selection but the last one. -/
def LoadBalancer.searchWork (lb : LoadBalancer) (candidates : Nat) : Nat :=
  (lb.selectionWork + 1) * candidates + lb.selectionWork

theorem LoadBalancer.searchWork_mono (lb : LoadBalancer) {m n : Nat} (h : m ≤ n) :
    lb.searchWork m ≤ lb.searchWork n :=
  Nat.add_le_add_right (Nat.mul_le_mul_left _ h) _

/-- After a selection, and before the last one, there are a check and another search. -/
theorem LoadBalancer.searchWork_succ_le (lb : LoadBalancer) {m n : Nat} (h : m < n) :
    lb.searchWork m + 1 ≤ (lb.selectionWork + 1) * n := by
  have hmul := Nat.mul_le_mul_left (lb.selectionWork + 1) h
  rw [Nat.mul_succ] at hmul
  exact hmul

/-- Each round of the loop excludes one more provider of the pool. -/
theorem selectAvailable_within (excluded : Finset ProviderId) :
    (Tasks.selectAvailable chain policy excluded).Within
      (chain.loadBalancer.searchWork (chain.loadBalancer.pool.ids \ excluded).card) := by
  induction hk : (chain.loadBalancer.pool.ids \ excluded).card using Nat.strong_induction_on
    generalizing excluded with
  | _ k ih =>
    subst hk
    rw [Tasks.selectAvailable, LoadBalancer.searchWork, Nat.add_comm]
    refine Within.bind (select_within _ excluded _) fun selection => ?_
    obtain ⟨_ | provider, hmem⟩ := selection
    · exact within_done _ _
    · have hlt := Tasks.card_sdiff_insert_lt (hmem provider rfl)
      have hrest := ih _ hlt (insert provider.id excluded) rfl
      refine Within.mono ?_ (chain.loadBalancer.searchWork_succ_le hlt)
      refine within_ask.mpr fun available => ?_
      change Bool at available
      cases available with
      | true => exact within_done _ _
      | false => exact hrest

theorem selectProvider_within (tried : Finset ProviderId) :
    (Tasks.selectProvider chain byId ctx policy tried).Within
      (chain.loadBalancer.searchWork chain.loadBalancer.pool.ids.card + 1) := by
  have search : ∀ excluded, (Tasks.selectAvailable chain policy excluded).Within
      (chain.loadBalancer.searchWork chain.loadBalancer.pool.ids.card) := fun excluded =>
    (selectAvailable_within excluded).mono
      (chain.loadBalancer.searchWork_mono (Finset.card_le_card Finset.sdiff_subset))
  unfold Tasks.selectProvider
  split
  · exact (search _).mono (Nat.le_succ _)
  · dsimp only
    split
    · exact (search _).mono (Nat.le_succ _)
    · split
      · exact within_done _ _
      · split
        · exact (search _).mono (Nat.le_succ _)
        · refine within_ask.mpr fun available => ?_
          change Bool at available
          cases available with
          | true => exact within_done _ _
          | false => exact search _

variable {tower : Tower}

theorem backoffDelay_within (attempt maxAttempts : Nat) (backoff : Option tower.Backoff) :
    (Tasks.backoffDelay chain tower attempt maxAttempts backoff).Within 1 := by
  unfold Tasks.backoffDelay
  split
  · split
    · exact within_ask.mpr fun _ => within_done _ _
    · exact within_done _ _
  · exact within_done _ _

/-- What one attempt may take: the check of the override, a search, the start, the call, the report and a delay. -/
def ChainRuntime.attemptWork (chain : ChainRuntime) : Nat :=
  chain.loadBalancer.searchWork chain.loadBalancer.pool.ids.card + 5

theorem attempts_within (maxAttempts remaining : Nat) (tried : Finset ProviderId) (lastError : Option String)
    (backoff : Option tower.Backoff) :
    (Tasks.attempts chain byId ctx policy tower maxAttempts remaining tried lastError backoff).Within
      (remaining * chain.attemptWork) := by
  induction remaining generalizing tried lastError backoff with
  | zero => exact within_done _ _
  | succ remaining ih =>
    have hwork : (remaining + 1) * chain.attemptWork =
        chain.loadBalancer.searchWork chain.loadBalancer.pool.ids.card + 1 +
          (1 + remaining * chain.attemptWork + 3) := by
      rw [Nat.succ_mul, ChainRuntime.attemptWork]
      omega
    rw [Tasks.attempts, hwork]
    refine Within.bind (selectProvider_within tried) fun selected => ?_
    rcases selected with _ | provider
    · exact within_done _ _
    · refine within_ask.mpr fun _ => within_ask.mpr fun result => ?_
      change Except String ProviderResponse at result
      rcases result with message | response
      · refine within_ask.mpr fun _ => ?_
        exact Within.bind (backoffDelay_within _ _ _) fun backoff' => ih _ _ backoff'
      · exact within_ask.mpr fun _ => within_done _ _

theorem requestLoop_within {loop : ChainTask LoopEnd}
    (hloop : Tasks.requestLoop chain byId ctx policy tower = some loop) :
    loop.Within (max policy.maxRetries 1 * chain.attemptWork) := by
  unfold Tasks.requestLoop at hloop
  split at hloop
  · cases hloop
    exact attempts_within _ _ _ _ _
  · obtain ⟨backoff, -, rfl⟩ := Option.map_eq_some_iff.mp hloop
    exact attempts_within _ _ _ _ _

theorem proxyHandlerImpl_within {globs : Globs} {decode : String → String} {tower : Tower} {state : ProxyState}
    {job : Tasks.Job} {chain : ChainRuntime} (hchain : state.resolveChain decode job.call.chainId = .ok chain) :
    (Tasks.proxyHandlerImpl globs decode tower state job).Within
      (max (job.policy globs chain).maxRetries 1 * chain.attemptWork) := by
  unfold Tasks.proxyHandlerImpl
  rw [hchain]
  dsimp only
  split
  · exact within_done _ _
  · rename_i loop hloop
    exact Within.bind (requestLoop_within hloop) (n := 0) fun _ => within_done _ _

end

/-! ### Upstream calls -/

def Access.isForward : Access → Bool
  | .forward _ _ => true
  | _ => false

/-- The accesses that call an upstream node. -/
def upstreamCalls (log : AccessLog) : Nat := log.countP (·.2.2.isForward)

/-- The calls of the attempt that is not over, or of the one that succeeded. -/
def Phase.calls : Phase → Nat
  | .answered _ _ | .succeeded _ _ => 1
  | .selecting | .checked _ | .started _ => 0

theorem upstreamCalls_snoc (log : AccessLog) (entry : Moment × ChainAccess) :
    upstreamCalls (log ++ [entry]) = upstreamCalls log + if entry.2.2.isForward then 1 else 0 := by
  simp [upstreamCalls, List.countP_append, List.countP_singleton]

/-- Each failed attempt has called once. -/
theorem upstreamCalls_step {chain : ChainRuntime} {byId : HashMap ProviderId ProviderHandle} {policy : MethodPolicy}
    {s : Progress} {log : AccessLog} (h : upstreamCalls log = s.failed.length + s.phase.calls) {op : ChainAccess}
    (hallowed : (requestProtocol chain byId policy).allowed s op) (m : Moment) (a : op.2.Answer) :
    upstreamCalls (log ++ [(m, op)]) = (s.next op a).failed.length + (s.next op a).phase.calls := by
  obtain ⟨key, access⟩ := op
  obtain ⟨-, hallowed⟩ := hallowed
  obtain ⟨failed, phase⟩ := s
  rw [upstreamCalls_snoc, h]
  cases access with
  | readEntry | lockCursor | lockRng | delay => simp [Access.isForward, Progress.next]
  | isAvailable p =>
    obtain ⟨⟨rfl, -⟩, -, -⟩ := hallowed
    change Bool at a
    cases a <;> simp [Access.isForward, Progress.next, Phase.calls]
  | onRequestStart p =>
    obtain rfl : phase = .checked p := hallowed
    simp [Access.isForward, Progress.next, Phase.calls]
  | forward provider timeout =>
    obtain ⟨hphase, -, -⟩ := hallowed
    obtain rfl : phase = .started provider.id := hphase
    simp [Access.isForward, Progress.next, Phase.calls]
  | onSuccess p =>
    obtain ⟨response, hphase⟩ := hallowed
    obtain rfl : phase = .answered p (.ok response) := hphase
    simp [Access.isForward, Progress.next, Phase.calls]
  | onFailure p =>
    obtain ⟨message, hphase⟩ := hallowed
    obtain rfl : phase = .answered p (.error message) := hphase
    simp [Access.isForward, Progress.next, Phase.calls]

theorem Progress.calls_le (s : Progress) : s.failed.length + s.phase.calls ≤ s.providers.length := by
  obtain ⟨failed, phase⟩ := s
  cases phase <;> simp [Progress.providers, Progress.tried, Phase.provider, Phase.calls]

/-! ### What a request waits for -/

/-- The head of a success comes in time, and its body never ends. -/
def Exchange.Hangs (x : Exchange) (timeout : Duration) : Prop :=
  ∃ at_ status headers, x.head = .arrived at_ status headers ∧ at_ ≤ timeout ∧ status.isSuccess = true ∧ x.body = .never

/-- A call to an upstream node always returns, unless it hangs in the body. -/
theorem forward_none_iff {x : Exchange} {timeout : Duration} :
    forwardToProvider x timeout = none ↔ x.Hangs timeout := by
  obtain ⟨head, body⟩ := x
  constructor
  · intro h
    rcases head with _ | ⟨at_, message⟩ | ⟨at_, status, headers⟩
    · simp [forwardToProvider] at h
    · by_cases hle : at_ ≤ timeout <;> simp [forwardToProvider, hle] at h
    · by_cases hle : at_ ≤ timeout
      · by_cases hstatus : status.isSuccess = true
        · rcases body with _ | ⟨after, message⟩ | ⟨after, data⟩ <;> simp [forwardToProvider, hle, hstatus] at h
          exact ⟨at_, status, headers, rfl, hle, hstatus, rfl⟩
        · simp [forwardToProvider, hle, hstatus] at h
      · simp [forwardToProvider, hle] at h
  · rintro ⟨at_, status, headers, hhead, hle, hstatus, hbody⟩
    obtain rfl : head = _ := hhead
    obtain rfl : body = _ := hbody
    simp [forwardToProvider, hle, hstatus]

theorem exec_none_iff {memory : ServerMemory} {input : Input} {op : ChainAccess} :
    ServerMemory.exec memory input op = none ↔
      ∃ handle timeout, op.2 = .forward handle timeout ∧ (input.upstream handle).Hangs timeout := by
  obtain ⟨key, access⟩ := op
  cases access <;> simp [ServerMemory.exec, forward_none_iff]

/-- The steps that a request may take in all. -/
def Tasks.Job.work (job : Tasks.Job) (globs : Globs) (chain : ChainRuntime) : Nat :=
  max (job.policy globs chain).maxRetries 1 * chain.attemptWork

end Rpceth
