import Rpceth.Theorems.RetryDelays
import Rpceth.Theorems.TaskProtocol
import Rpceth.Theorems.TaskReadings

/-! What a request has done at any point of a run, whatever runs beside it: failed attempts on distinct providers
    of its chain, each reported once, and at most one attempt that is not reported yet. -/

namespace Rpceth
open Lib Program

/-- A trace without its delays. -/
def attemptEvents (trace : List Event) : List Event := trace.filter (!·.isDelay)

theorem attemptEvents_append (l l' : List Event) : attemptEvents (l ++ l') = attemptEvents l ++ attemptEvents l' :=
  List.filter_append ..

namespace Phase

/-- The events of the attempt that is not over, or of the one that succeeded. -/
def events : Phase → List Event
  | .selecting | .checked _ => []
  | .started p => [.onRequestStart p]
  | .answered p result => [.onRequestStart p, .forward p result]
  | .succeeded p response => [.onRequestStart p, .forward p (.ok response), .onSuccess p]

def provider : Phase → Option ProviderId
  | .selecting => none
  | .checked p | .started p | .answered p _ | .succeeded p _ => some p

end Phase

namespace Progress

def events (s : Progress) : List Event := (s.failed.flatMap fun f => failedAttempt f.1 f.2) ++ s.phase.events

/-- The providers that the request has chosen, in order. -/
def providers (s : Progress) : List ProviderId := s.tried ++ s.phase.provider.toList

/-- The progress of a request, whatever its accesses are. -/
def protocol : Protocol ChainAccess (fun op => op.2.Answer) Progress where
  allowed _ _ := True
  next := Progress.next

end Progress

/-- How far the accesses of a log have brought a request. -/
def progress (log : AccessLog) : Progress := Progress.protocol.after answer .start log

/-- The log of a request of the chain that has come to `s`. -/
structure Accounts (chain : ChainRuntime) (byId : HashMap ProviderId ProviderHandle) (policy : MethodPolicy)
    (s : Progress) (log : AccessLog) : Prop where
  trace : attemptEvents (events log) = s.events
  distinct : s.providers.Nodup
  inChain : ∀ p ∈ s.providers, p ∈ chain.providers
  budget : s.providers.length ≤ max policy.maxRetries 1
  through : ∀ entry ∈ log, entry.2.1 = chain.id
  forwards : ∀ entry ∈ log, ∀ h timeout, entry.2.2 = .forward h timeout →
    Progress.Known chain byId h ∧ timeout = max h.timeout policy.timeout

section
variable {chain : ChainRuntime} {byId : HashMap ProviderId ProviderHandle} {policy : MethodPolicy} {s s' : Progress}
  {log : AccessLog} {entry : Moment × ChainAccess}

theorem Accounts.start : Accounts chain byId policy .start [] where
  trace := rfl
  distinct := List.nodup_nil
  inChain _ hp := absurd hp List.not_mem_nil
  budget := Nat.zero_le _
  through _ he := absurd he List.not_mem_nil
  forwards _ he := absurd he List.not_mem_nil

/-- One more access through the chain, with what it adds to the trace. -/
theorem Accounts.snoc (h : Accounts chain byId policy s log) (hkey : entry.2.1 = chain.id)
    (hforward : ∀ h timeout, entry.2.2 = .forward h timeout →
      Progress.Known chain byId h ∧ timeout = max h.timeout policy.timeout)
    (hevents : s'.events = s.events ++ attemptEvents (events [entry])) (hnodup : s'.providers.Nodup)
    (hin : ∀ p ∈ s'.providers, p ∈ chain.providers) (hbudget : s'.providers.length ≤ max policy.maxRetries 1) :
    Accounts chain byId policy s' (log ++ [entry]) where
  trace := by rw [events_append, attemptEvents_append, h.trace, hevents]
  distinct := hnodup
  inChain := hin
  budget := hbudget
  through e he := by
    rcases List.mem_append.mp he with he | he
    · exact h.through e he
    · rw [List.mem_singleton.mp he]
      exact hkey
  forwards e he := by
    rcases List.mem_append.mp he with he | he
    · exact h.forwards e he
    · rw [List.mem_singleton.mp he]
      exact hforward

/-- An access that chooses no provider. -/
theorem Accounts.same (h : Accounts chain byId policy s log) (hkey : entry.2.1 = chain.id)
    (hforward : ∀ h timeout, entry.2.2 = .forward h timeout →
      Progress.Known chain byId h ∧ timeout = max h.timeout policy.timeout)
    (hevents : s'.events = s.events ++ attemptEvents (events [entry])) (hproviders : s'.providers = s.providers) :
    Accounts chain byId policy s' (log ++ [entry]) :=
  h.snoc hkey hforward hevents (hproviders ▸ h.distinct) (hproviders ▸ h.inChain) (hproviders ▸ h.budget)

theorem answer_forward {m : Moment} {key : ChainKey} {h : ProviderHandle} {timeout : Duration}
    {result : Except String ProviderResponse} (hanswer : answer m (key, .forward h timeout) = some result) :
    ∃ t, forwardToProvider (m.2.upstream h) timeout = some (t, result) := by
  obtain ⟨_, hexec, rfl⟩ := Option.map_eq_some_iff.mp hanswer
  obtain ⟨⟨t, result⟩, hforward, rfl⟩ := Option.map_eq_some_iff.mp hexec
  exact ⟨t, hforward⟩

/-- What an allowed access does to the accounts: it chooses a provider, goes on with the attempt on it, or
    reports how the attempt ended. -/
theorem Accounts.step (h : Accounts chain byId policy s log) {m : Moment} {op : ChainAccess} {a : op.2.Answer}
    (hallowed : (requestProtocol chain byId policy).allowed s op) (hanswer : answer m op = some a) :
    Accounts chain byId policy (s.next op a) (log ++ [(m, op)]) := by
  obtain ⟨key, access⟩ := op
  obtain ⟨hkey, hallowed⟩ := hallowed
  obtain ⟨failed, phase⟩ := s
  have quiet : ∀ {access : Access}, (∀ h timeout, access ≠ .forward h timeout) →
      ∀ h timeout, access = .forward h timeout →
        Progress.Known chain byId h ∧ timeout = max h.timeout policy.timeout :=
    fun hne h timeout heq => absurd heq (hne h timeout)
  cases access with
  | readEntry | lockCursor | lockRng | delay =>
    exact h.same hkey (quiet (by simp)) (by simp [Progress.next, events, accessEvent, attemptEvents, Event.isDelay]) rfl
  | isAvailable p =>
    obtain ⟨⟨rfl, hbudget⟩, hp, htried⟩ := hallowed
    change Bool at a
    cases a with
    | false => exact h.same hkey (quiet (by simp)) (by simp [Progress.next, events, accessEvent, attemptEvents]) rfl
    | true =>
      have hproviders : Progress.providers ⟨failed, .checked p⟩ = Progress.tried ⟨failed, .selecting⟩ ++ [p] := rfl
      have hdistinct : (Progress.tried ⟨failed, .selecting⟩).Nodup := by
        simpa [Progress.providers, Phase.provider] using h.distinct
      have hin : ∀ q ∈ Progress.tried ⟨failed, .selecting⟩, q ∈ chain.providers :=
        fun q hq => h.inChain q (List.mem_append_left _ hq)
      show Accounts chain byId policy ⟨failed, .checked p⟩ _
      refine h.snoc hkey (quiet (by simp)) ?_ ?_ ?_ ?_
      · simp [Progress.events, Phase.events, events, accessEvent, attemptEvents]
      · rw [hproviders]
        exact List.nodup_append.mpr ⟨hdistinct, List.nodup_singleton p, fun q hq r hr heq =>
          htried (List.mem_singleton.mp hr ▸ heq ▸ hq)⟩
      · intro q hq
        rcases List.mem_append.mp hq with hq | hq
        · exact hin q hq
        · exact List.mem_singleton.mp hq ▸ hp
      · rw [hproviders, List.length_append, Progress.tried, List.length_map]
        exact hbudget
  | onRequestStart p =>
    obtain rfl : phase = .checked p := hallowed
    refine h.same hkey (quiet (by simp)) ?_ rfl
    simp [Progress.next, Progress.events, Phase.events, events, accessEvent, attemptEvents, Event.isDelay]
  | forward provider timeout =>
    obtain ⟨hphase, hknown, rfl⟩ := hallowed
    obtain rfl : phase = .started provider.id := hphase
    obtain ⟨t, hforward⟩ := answer_forward hanswer
    refine h.same hkey ?_ ?_ rfl
    · intro h' timeout' heq
      cases heq
      exact ⟨hknown, rfl⟩
    · simp [Progress.next, Progress.events, Phase.events, events, accessEvent, attemptEvents, Event.isDelay, hforward]
  | onSuccess p =>
    obtain ⟨response, hphase⟩ := hallowed
    obtain rfl : phase = .answered p (.ok response) := hphase
    refine h.same hkey (quiet (by simp)) ?_ rfl
    simp [Progress.next, Progress.events, Phase.events, events, accessEvent, attemptEvents, Event.isDelay]
  | onFailure p =>
    obtain ⟨message, hphase⟩ := hallowed
    obtain rfl : phase = .answered p (.error message) := hphase
    refine h.same hkey (quiet (by simp)) ?_ ?_
    · simp [Progress.next, Progress.events, Phase.events, events, accessEvent, attemptEvents, Event.isDelay,
        failedAttempt]
    · simp [Progress.next, Progress.providers, Progress.tried, Phase.provider]

end

/-! ### The tasks of the server -/

section Server
variable {globs : Globs} {decode : String → String} {tower : Tower} {config : ProxyConfig} {state : ProxyState}
  {ok : Server → Action Tasks.Job Input External → Prop} {memory : ServerMemory} {w : Server} {id : Nat}
  {t : RequestTask}

theorem lookup_of_resolveChain {value : Option String} {chain : ChainRuntime}
    (h : state.resolveChain decode value = .ok chain) : ∃ key, state.chains.lookup key = some chain := by
  unfold ProxyState.resolveChain at h
  dsimp only at h
  split at h
  · cases h
  · rename_i key _
    split at h
    · rename_i runtime hruntime
      cases h
      exact ⟨key, hruntime⟩
    · cases h

theorem resolved_pool (hstate : ProxyState.new decode globs config = .ok state) {value : Option String}
    {chain : ChainRuntime} (h : state.resolveChain decode value = .ok chain) :
    chain.providers = chain.loadBalancer.pool.ids := by
  obtain ⟨key, hkey⟩ := lookup_of_resolveChain h
  exact providers_eq_pool hstate hkey

/-- A chain with a provider has a health service, with the tolerance of the chain. -/
theorem health_of_chain (hstate : ProxyState.new decode globs config = .ok state) {key : ChainKey}
    {chain : ChainRuntime} (hchain : state.chains.lookup key = some chain) {p : ProviderId}
    (hp : p ∈ chain.providers) :
    chain.loadBalancer.health = some (.new chain.loadBalancer.pool.providers chain.tolerance) := by
  obtain ⟨_, _, tolerance, providers, -, rfl, -⟩ := proxyState_chain hstate hchain
  cases providers with
  | nil => cases List.not_mem_nil (List.mem_toFinset.mp hp)
  | cons provider providers => rfl

/-- A task keeps to the protocol of its job from where its log has brought it. -/
theorem task_progress (hstate : ProxyState.new decode globs config = .ok state)
    (h : Reached (server globs decode tower state).step ok (.start memory) w) (ht : w.tasks id = some t) :
    Follows (jobProtocol globs decode state t.job) (Finished globs decode tower state t.job) (progress t.log)
      t.program := by
  have hcode : ∀ job, Follows (jobProtocol globs decode state job) (Finished globs decode tower state job) .start
      ((server globs decode tower state).code job) :=
    proxyHandlerImpl_follows (fun _ _ => lookup_providersById hstate) fun _ _ => resolved_pool hstate
  exact Runtime.task_follows hcode h ht

theorem task_leads (h : Reached (server globs decode tower state).step ok (.start memory) w)
    (ht : w.tasks id = some t) :
    Leads answer (Tasks.proxyHandlerImpl globs decode tower state t.job) t.log t.program :=
  Runtime.task_leads h ht

/-- A rule for the tasks: what every allowed access keeps, the log of a task has. -/
theorem task_invariant (hstate : ProxyState.new decode globs config = .ok state)
    (h : Reached (server globs decode tower state).step ok (.start memory) w) (ht : w.tasks id = some t)
    {I : Progress → AccessLog → Prop} (hstart : I .start [])
    (hstep : ∀ s log m op a, I s log → (jobProtocol globs decode state t.job).allowed s op → answer m op = some a →
      I (s.next op a) (log ++ [(m, op)])) : I (progress t.log) t.log := by
  have hfollows : Follows (jobProtocol globs decode state t.job) (Finished globs decode tower state t.job) .start
      (Tasks.proxyHandlerImpl globs decode tower state t.job) :=
    proxyHandlerImpl_follows (fun _ _ => lookup_providersById hstate) (fun _ _ => resolved_pool hstate) t.job
  exact Protocol.follows_invariant hstep hfollows (task_leads h ht) hstart

/-- A request makes no access if its chain does not resolve. -/
theorem task_unresolved (hstate : ProxyState.new decode globs config = .ok state)
    (h : Reached (server globs decode tower state).step ok (.start memory) w) (ht : w.tasks id = some t)
    {err : ChainError} (herr : state.resolveChain decode t.job.call.chainId = .error err) : t.log = [] := by
  refine task_invariant (I := fun _ log => log = []) hstate h ht rfl ?_
  intro s log m op a _ hallowed _
  obtain ⟨chain, hchain, -⟩ := hallowed
  rw [herr] at hchain
  cases hchain

/-- What every access that is allowed to a request of the chain keeps, the log of a request has. -/
theorem task_invariant_of_chain (hstate : ProxyState.new decode globs config = .ok state)
    (h : Reached (server globs decode tower state).step ok (.start memory) w) (ht : w.tasks id = some t)
    {chain : ChainRuntime} (hchain : state.resolveChain decode t.job.call.chainId = .ok chain)
    {I : Progress → AccessLog → Prop} (hstart : I .start [])
    (hstep : ∀ s log m op a, I s log →
      (requestProtocol chain state.providersById (t.job.policy globs chain)).allowed s op → answer m op = some a →
      I (s.next op a) (log ++ [(m, op)])) : I (progress t.log) t.log := by
  refine task_invariant hstate h ht hstart ?_
  intro s log m op a hI hallowed hanswer
  obtain ⟨chain', hchain', hallowed⟩ := hallowed
  obtain rfl := Except.ok.inj (hchain'.symm.trans hchain)
  exact hstep s log m op a hI hallowed hanswer

theorem task_accounts (hstate : ProxyState.new decode globs config = .ok state)
    (h : Reached (server globs decode tower state).step ok (.start memory) w) (ht : w.tasks id = some t)
    {chain : ChainRuntime} (hchain : state.resolveChain decode t.job.call.chainId = .ok chain) :
    Accounts chain state.providersById (t.job.policy globs chain) (progress t.log) t.log :=
  task_invariant_of_chain hstate h ht hchain Accounts.start fun _ _ _ _ _ haccounts hallowed hanswer =>
    haccounts.step hallowed hanswer

/-- How a request that is over has ended. -/
theorem task_finished (hstate : ProxyState.new decode globs config = .ok state)
    (h : Reached (server globs decode tower state).step ok (.start memory) w) (ht : w.tasks id = some t)
    {ending : HandlerEnd} (hdone : t.program = .done ending) :
    Finished globs decode tower state t.job (progress t.log) ending := by
  have hfollows := task_progress hstate h ht
  rw [hdone] at hfollows
  exact hfollows

end Server

/-- At any point of any run, a request has done this, wherever it is: it has called nothing if its chain does not
    resolve. Else it has made some failed attempts and perhaps one more, on distinct providers of its chain and
    within its budget; every start, answer and report of these is in its log once, in order, and through its own
    chain. Once it is over, its response comes from how the last of them ended. -/
theorem task_attempts (globs : Globs) (decode : String → String) (tower : Tower) (config : ProxyConfig)
    (state : ProxyState) (hstate : ProxyState.new decode globs config = .ok state)
    (ok : Server → Action Tasks.Job Input External → Prop) (memory : ServerMemory) (w : Server)
    (h : Reached (server globs decode tower state).step ok (.start memory) w) (id : Nat) (t : RequestTask)
    (ht : w.tasks id = some t) :
    ∃ s : Progress, (∀ e, t.program = .done e → Finished globs decode tower state t.job s e) ∧
      (∀ err, state.resolveChain decode t.job.call.chainId = .error err → t.log = []) ∧
      ∀ chain, state.resolveChain decode t.job.call.chainId = .ok chain →
        Accounts chain state.providersById (t.job.policy globs chain) s t.log := by
  exact ⟨progress t.log, fun e he => task_finished hstate h ht he, fun err herr => task_unresolved hstate h ht herr,
    fun chain hchain => task_accounts hstate h ht hchain⟩

theorem task_attempts_failing : ∃ state w t s,
    Reached (server literalGlobs id doublingTower state).step (fun _ _ => True) (.start (state.memory 0)) w ∧
      w.tasks 0 = some t ∧ t.log.length = 4 ∧
      ∀ chain, state.resolveChain id t.job.call.chainId = .ok chain →
        Accounts chain state.providersById (t.job.policy literalGlobs chain) s t.log := by
  obtain ⟨state, _, w, t, hstate, -, -, h, ht, hlen⟩ := failingRequest_reached
  obtain ⟨s, -, -, haccounts⟩ :=
    task_attempts literalGlobs id doublingTower fragileConfig state hstate _ _ w h 0 t ht
  exact ⟨state, w, t, s, h, ht, hlen, haccounts⟩

end Rpceth
