import Rpceth.Lib.History
import Rpceth.Theorems.BreakerHistory
import Rpceth.Theorems.HealthInvariant
import Rpceth.Theorems.ProbeAnswers
import Rpceth.Theorems.TaskAttempts

/-! The memory of a chain as what the requests and the probes have made of it, in the order in which their steps
    took effect: the circuits track what the requests reported, and the health states what the probes found. -/

namespace Rpceth
open Lib Runtime Happening

abbrev History : Type := List (ServerMemory × Happening ChainAccess Input External)

/-! ### What a happening is to a chain -/

def Access.call? : Access → Option (CallKind × ProviderId)
  | .onRequestStart p => some (.onRequestStart, p)
  | .onSuccess p => some (.onSuccess, p)
  | .onFailure p => some (.onFailure, p)
  | _ => none

/-- The call of the breaker of a chain that an access is. -/
def callOf (key : ChainKey) (entry : Moment × ChainAccess) : Option Call :=
  if entry.2.1 = key then entry.2.2.call?.map fun c => ⟨c.1, c.2, entry.1.1.now⟩ else none

/-- The calls of the breaker of a chain. -/
def calls (key : ChainKey) (hs : History) : List Call := (accesses hs).filterMap fun a => callOf key a.2

/-- The probe result of a chain that a happening is. -/
def probeOf (key : ChainKey) : ServerMemory × Happening ChainAccess Input External → Option ProbeResult
  | (memory, .outside (.probed k provider client)) =>
    if k = key then some (.ofProbe memory.now (JsonRpcHealthProbe.probe client provider)) else none
  | _ => none

def probes (key : ChainKey) (hs : History) : List ProbeResult := hs.filterMap (probeOf key)

/-! ### One happening -/

section
variable {memory memory' : ServerMemory} {input : Input} {key : ChainKey}

theorem exec_breaker {op : ChainAccess} {a : op.2.Answer} (h : ServerMemory.exec memory input op = some (a, memory')) :
    (memory'.chains key).breaker = ((callOf key ((memory, input), op)).map
      (memory.chains key).breaker.call).getD (memory.chains key).breaker := by
  obtain ⟨k, access⟩ := op
  have hne : k ≠ key → key ≠ k := Ne.symm
  cases access with
  | forward provider timeout =>
    obtain ⟨x, -, heq⟩ := Option.map_eq_some_iff.mp h
    obtain ⟨-, rfl⟩ := Prod.mk.inj heq
    simp [callOf, Access.call?]
  | readEntry | lockRng | isAvailable | delay =>
    obtain ⟨-, rfl⟩ := Prod.mk.inj (Option.some.inj h)
    simp [callOf, Access.call?]
  | lockCursor | onRequestStart | onSuccess | onFailure =>
    obtain ⟨-, rfl⟩ := Prod.mk.inj (Option.some.inj h)
    by_cases hk : k = key
    · subst hk
      simp [callOf, Access.call?, CircuitBreaker.call]
    · rw [ServerMemory.chains_modify_ne (hne hk)]
      simp [callOf, hk]

theorem exec_health {op : ChainAccess} {a : op.2.Answer} (h : ServerMemory.exec memory input op = some (a, memory')) :
    (memory'.chains key).health = (memory.chains key).health := by
  obtain ⟨k, access⟩ := op
  cases access with
  | forward provider timeout =>
    obtain ⟨x, -, heq⟩ := Option.map_eq_some_iff.mp h
    obtain ⟨-, rfl⟩ := Prod.mk.inj heq
    rfl
  | readEntry | lockRng | isAvailable | delay =>
    obtain ⟨-, rfl⟩ := Prod.mk.inj (Option.some.inj h)
    rfl
  | lockCursor | onRequestStart | onSuccess | onFailure =>
    obtain ⟨-, rfl⟩ := Prod.mk.inj (Option.some.inj h)
    by_cases hk : key = k
    · subst hk
      simp
    · rw [ServerMemory.chains_modify_ne hk]

/-- From outside only probes reach the memory of a chain, and only its health states. -/
theorem outside_chain {event : External} (h : ServerMemory.outside memory event = some memory') :
    (memory'.chains key).breaker = (memory.chains key).breaker ∧
    (memory'.chains key).cursor = (memory.chains key).cursor ∧
    (memory'.chains key).health = ((probeOf key (memory, .outside event)).map
      (memory.chains key).health.apply).getD (memory.chains key).health := by
  cases event with
  | tick elapsed =>
    obtain rfl := Option.some.inj h
    exact ⟨rfl, rfl, rfl⟩
  | probed k provider client =>
    obtain ⟨-, heq⟩ := Option.ite_none_right_eq_some.mp h
    obtain rfl := Option.some.inj heq
    by_cases hk : k = key
    · subst hk
      simp [probeOf, HealthService.probed_eq_apply]
    · rw [ServerMemory.chains_modify_ne (Ne.symm hk)]
      simp [probeOf, hk]

end

/-! ### All happenings -/

section Timeline
variable {globs : Globs} {decode : String → String} {tower : Tower} {state : ProxyState} {start memory : ServerMemory}
  {hs : History} {key : ChainKey}

theorem timeline_breaker (h : (server globs decode tower state).Timeline start hs memory) :
    (memory.chains key).breaker = (start.chains key).breaker.replay (calls key hs) := by
  have hreplay := h.replay (fun m => (m.chains key).breaker) (fun x => (access? x).bind fun a => callOf key a.2)
    CircuitBreaker.call ?_
  · rw [hreplay, calls, accesses, List.filterMap_filterMap]
    rfl
  · intro m happening m' hm
    cases happening with
    | access id input op =>
      obtain ⟨⟨a, m''⟩, hexec, rfl⟩ := Option.map_eq_some_iff.mp hm
      exact exec_breaker hexec
    | outside event => exact (outside_chain hm).1

theorem timeline_health (h : (server globs decode tower state).Timeline start hs memory) :
    (memory.chains key).health = (start.chains key).health.replay (probes key hs) := by
  refine h.replay (fun m => (m.chains key).health) (probeOf key) HealthService.apply ?_
  intro m happening m' hm
  cases happening with
  | access id input op =>
    obtain ⟨⟨a, m''⟩, hexec, rfl⟩ := Option.map_eq_some_iff.mp hm
    exact exec_health hexec
  | outside event => exact (outside_chain hm).2.2

end Timeline

/-- The calls of the breaker come in the order of the clock. -/
theorem calls_clock (h : (server globs decode tower state).Timeline start hs memory) :
    (calls key hs).Pairwise fun c d => c.now ≤ d.now := by
  have hclock := (h.chronological (fun a b => a.now ≤ b.now) (fun _ _ _ => Nat.le_trans) ?_).1
  · have hcalls : calls key hs = hs.filterMap fun x => (access? x).bind fun a => callOf key a.2 := by
      rw [calls, accesses, List.filterMap_filterMap]
    rw [hcalls, List.pairwise_filterMap]
    refine hclock.imp fun {x y} hle c hc d hd => ?_
    have now_of : ∀ {x : ServerMemory × Happening ChainAccess Input External} {c : Call},
        ((access? x).bind fun a => callOf key a.2) = some c → c.now = x.1.now := by
      rintro ⟨m, happening⟩ c hc
      cases happening with
      | outside event => cases hc
      | access id input op =>
        obtain ⟨-, hmap⟩ := Option.ite_none_right_eq_some.mp hc
        obtain ⟨-, -, rfl⟩ := Option.map_eq_some_iff.mp hmap
        rfl
    rw [now_of hc, now_of hd]
    exact hle
  · intro m happening m' hm
    cases happening with
    | access id input op =>
      obtain ⟨⟨a, m''⟩, hexec, rfl⟩ := Option.map_eq_some_iff.mp hm
      exact Nat.le_of_eq (ServerMemory.exec_now hexec).symm
    | outside event => exact ServerMemory.outside_now hm

/-- The memory of a new state has the chain as it was built. -/
theorem memory_chains {state : ProxyState} {key : ChainKey} {chain : ChainRuntime}
    (h : state.chains.lookup key = some chain) (now : Instant) : (state.memory now).chains key = chain.memory := by
  simp [ProxyState.memory, h]

/-- Its health states and its circuits are new ones, over the same providers. -/
theorem memory_buildChainRuntime (decode : String → String) (key : ChainKey) (aliases : List String)
    (strategy : BalancerStrategy) (tolerance : ToleranceLevel) (providers : List ProviderHandle)
    (config : ProxyConfig) (registry : MethodRegistry) :
    (buildChainRuntime decode key aliases strategy tolerance providers config registry).memory =
      ⟨.new providers tolerance, 0, .new providers config.circuitBreaker⟩ := by
  cases providers <;> rfl

/-- The health service of a chain starts new, over the pool of the chain. -/
theorem memory_health {globs : Globs} {decode : String → String} {config : ProxyConfig} {state : ProxyState}
    {key : ChainKey} {chain : ChainRuntime} (hstate : ProxyState.new decode globs config = .ok state)
    (hchain : state.chains.lookup key = some chain) (now : Instant) :
    ((state.memory now).chains key).health = .new chain.loadBalancer.pool.providers chain.tolerance := by
  rw [memory_chains hchain]
  obtain ⟨_, _, tolerance, providers, -, rfl, -⟩ := proxyState_chain hstate hchain
  rw [memory_buildChainRuntime]
  rfl

/-! ### Attempts and reports -/

/-- The provider of the attempt that has started and is not reported. -/
def Phase.inFlight : Phase → Option ProviderId
  | .started p | .answered p _ => some p
  | _ => none

/-- How often the accesses of a log call the breaker of a chain like this. -/
def callCount (key : ChainKey) (kind : CallKind) (p : ProviderId) (log : AccessLog) : Nat :=
  log.countP fun entry => (callOf key entry).any (·.is kind p)

theorem callCount_snoc (key : ChainKey) (kind : CallKind) (p : ProviderId) (log : AccessLog)
    (entry : Moment × ChainAccess) : callCount key kind p (log ++ [entry]) =
      callCount key kind p log + if (callOf key entry).any (·.is kind p) then 1 else 0 := by
  simp [callCount, List.countP_append, List.countP_singleton]

/-- Every start but that of the attempt in flight is reported. -/
def Balanced (key : ChainKey) (p : ProviderId) (s : Progress) (log : AccessLog) : Prop :=
  callCount key .onRequestStart p log =
    callCount key .onSuccess p log + callCount key .onFailure p log + if s.phase.inFlight = some p then 1 else 0

theorem Balanced.step {chain : ChainRuntime} {byId : HashMap ProviderId ProviderHandle} {policy : MethodPolicy}
    {p : ProviderId} {s : Progress} {log : AccessLog} (h : Balanced chain.id p s log) {op : ChainAccess}
    (hallowed : (requestProtocol chain byId policy).allowed s op) (m : Moment) (a : op.2.Answer) :
    Balanced chain.id p (s.next op a) (log ++ [(m, op)]) := by
  obtain ⟨key, access⟩ := op
  obtain ⟨hkey, hallowed⟩ := hallowed
  obtain rfl : key = chain.id := hkey
  obtain ⟨failed, phase⟩ := s
  unfold Balanced at h ⊢
  simp only [callCount_snoc]
  cases access with
  | readEntry | lockCursor | lockRng | delay =>
    simp only [callOf, Access.call?, ↓reduceIte, Option.map_none, Option.any_none, Bool.false_eq_true, Nat.add_zero]
    exact h
  | isAvailable q =>
    obtain ⟨⟨rfl, -⟩, -, -⟩ := hallowed
    change Bool at a
    cases a <;> simpa [callOf, Access.call?, Progress.next, Phase.inFlight] using h
  | onRequestStart q =>
    obtain rfl : phase = .checked q := hallowed
    simp only [Phase.inFlight, reduceCtorEq, ↓reduceIte] at h
    simp [callOf, Access.call?, Progress.next, Phase.inFlight, Call.is, h]
  | forward provider timeout =>
    obtain ⟨hphase, -, -⟩ := hallowed
    obtain rfl : phase = .started provider.id := hphase
    simpa [callOf, Access.call?, Progress.next, Phase.inFlight] using h
  | onSuccess q =>
    obtain ⟨response, hphase⟩ := hallowed
    obtain rfl : phase = .answered q (.ok response) := hphase
    simp only [Phase.inFlight, Option.some.injEq] at h
    simp [callOf, Access.call?, Progress.next, Phase.inFlight, Call.is, h]
    omega
  | onFailure q =>
    obtain ⟨message, hphase⟩ := hallowed
    obtain rfl : phase = .answered q (.error message) := hphase
    simp only [Phase.inFlight, Option.some.injEq] at h
    simp [callOf, Access.call?, Progress.next, Phase.inFlight, Call.is, h]
    omega

section Server
variable {globs : Globs} {decode : String → String} {tower : Tower} {config : ProxyConfig} {state : ProxyState}
  {ok : Server → Action Tasks.Job Input External → Prop} {memory : ServerMemory} {w : Server} {id : Nat}
  {t : RequestTask} {hs : History} {key : ChainKey} {p : ProviderId}

/-- The request has an attempt in flight to `p` on the chain `key`. A request that was dropped there still has. -/
def InFlight (decode : String → String) (state : ProxyState) (key : ChainKey) (p : ProviderId) (t : RequestTask) :
    Prop :=
  ∃ chain, state.resolveChain decode t.job.call.chainId = .ok chain ∧ chain.id = key ∧
    (progress t.log).phase.inFlight = some p

open Classical in
theorem task_balanced (hstate : ProxyState.new decode globs config = .ok state)
    (h : Reached (server globs decode tower state).step ok (.start memory) w) (ht : w.tasks id = some t)
    (key : ChainKey) (p : ProviderId) :
    callCount key .onRequestStart p t.log = callCount key .onSuccess p t.log + callCount key .onFailure p t.log +
      if InFlight decode state key p t then 1 else 0 := by
  cases hchain : state.resolveChain decode t.job.call.chainId with
  | error err => simp [callCount, InFlight, hchain, task_unresolved hstate h ht hchain]
  | ok chain =>
    by_cases hkey : chain.id = key
    · subst hkey
      have hbalanced : Balanced chain.id p (progress t.log) t.log :=
        task_invariant_of_chain hstate h ht hchain rfl fun _ _ m _ a hlog hallowed _ => hlog.step hallowed m a
      have hin : InFlight decode state chain.id p t ↔ (progress t.log).phase.inFlight = some p := by
        simp [InFlight, hchain]
      simp only [hin]
      exact hbalanced
    -- The calls of the request are those of another chain.
    · have hzero : ∀ kind, callCount key kind p t.log = 0 := by
        intro kind
        refine List.countP_eq_zero.mpr fun entry hentry => ?_
        have hne : entry.2.1 ≠ key := (task_accounts hstate h ht hchain).through entry hentry ▸ hkey
        simp [callOf, hne]
      simp [hzero, InFlight, hchain, hkey]

theorem countP_calls (kind : CallKind) {ids : Finset Nat} (hids : ∀ a ∈ accesses hs, a.1 ∈ ids) :
    (calls key hs).countP (·.is kind p) = ∑ id ∈ ids, callCount key kind p (logOf id hs) := by
  have hany : ∀ entry, ((callOf key entry).map (·.is kind p)).getD false = (callOf key entry).any (·.is kind p) := by
    intro entry
    cases callOf key entry <;> rfl
  rw [calls, List.countP_filterMap]
  simp only [hany]
  exact countP_accesses (fun entry => (callOf key entry).any (·.is kind p)) hids

/-- What the circuit breaker of a chain was told: every attempt once that it was started and, unless it is in
    flight, once how it ended. -/
theorem calls_balanced (hstate : ProxyState.new decode globs config = .ok state)
    (h : Reached (server globs decode tower state).step ok (.start memory) w)
    (hlogs : ∀ id, logOf id hs = ((w.tasks id).map Task.log).getD []) (key : ChainKey) (p : ProviderId) :
    ∃ inFlight : Finset Nat, (∀ id, id ∈ inFlight ↔ ∃ t, w.tasks id = some t ∧ InFlight decode state key p t) ∧
      (calls key hs).countP (·.is .onRequestStart p) =
        (calls key hs).countP (·.is .onSuccess p) + (calls key hs).countP (·.is .onFailure p) + inFlight.card := by
  classical
  let ids := ((accesses hs).map Prod.fst).toFinset
  let flying : Nat → Prop := fun id => ∃ t, w.tasks id = some t ∧ InFlight decode state key p t
  have hids : ∀ a ∈ accesses hs, a.1 ∈ ids := fun a ha => List.mem_toFinset.mpr (List.mem_map_of_mem ha)
  have htask : ∀ id ∈ ids, callCount key .onRequestStart p (logOf id hs) =
      callCount key .onSuccess p (logOf id hs) + callCount key .onFailure p (logOf id hs) +
        if flying id then 1 else 0 := by
    intro id hid
    obtain ⟨a, ha, rfl⟩ := List.mem_map.mp (List.mem_toFinset.mp hid)
    obtain ⟨t, ht, -⟩ := task_of_access hlogs ha
    have hflying : flying a.1 ↔ InFlight decode state key p t := by simp [flying, ht]
    simp only [hlogs, ht, Option.map_some, Option.getD_some, hflying]
    exact task_balanced hstate h ht key p
  refine ⟨ids.filter flying, fun id => ?_, ?_⟩
  · rw [Finset.mem_filter]
    refine and_iff_right_of_imp fun ⟨t, ht, hin⟩ => ?_
    -- A request in flight has made an access.
    have hne : t.log ≠ [] := by
      intro hnil
      obtain ⟨-, -, -, hphase⟩ := hin
      rw [hnil] at hphase
      cases hphase
    have hlog : logOf id hs = t.log := by simp [hlogs, ht]
    obtain ⟨entry, hentry⟩ := List.exists_mem_of_ne_nil _ (hlog ▸ hne)
    obtain ⟨a, ha, rfl⟩ := List.mem_map.mp hentry
    obtain ⟨hmem, hid⟩ := List.mem_filter.mp ha
    exact beq_iff_eq.mp hid ▸ hids a hmem
  · rw [countP_calls _ hids, countP_calls _ hids, countP_calls _ hids, Finset.sum_congr rfl htask,
      Finset.sum_add_distrib, Finset.sum_add_distrib, Finset.card_filter]

end Server

/-! ### The circuits -/

/-- The entry of a provider after any calls tracks them. -/
theorem tracks_replay {b : CircuitBreaker} {p : ProviderId} {config : ResolvedCircuitBreaker}
    (hentry : b.entries.lookup p = some ⟨config, .closed 0⟩) (calls : List Call) :
    ∃ circuit, (b.replay calls).entries.lookup p = some ⟨config, circuit⟩ ∧
      Tracks config.effective p calls circuit := by
  induction calls using List.reverseRecOn with
  | nil => exact ⟨.closed 0, hentry, Tracks.of_no_failures config.one_le_effective rfl⟩
  | append_singleton calls c ih =>
    obtain ⟨circuit, hlookup, htracks⟩ := ih
    rw [CircuitBreaker.replay_concat]
    by_cases hp : c.provider = p
    · subst hp
      refine ⟨circuit.call config c, ?_, ?_⟩
      · rw [CircuitBreaker.lookup_call, hlookup]
        rfl
      · rw [← InnerState.call_effective]
        exact htracks.call config.one_le_effective rfl
    · refine ⟨circuit, ?_, htracks.unchanged (by simp [Call.is, hp]) (by simp [Call.is, hp])⟩
      rw [CircuitBreaker.lookup_call_ne (Ne.symm hp), hlookup]

/-- However the requests interleave, there is one history of the server, of which each request's log is its part,
    such that every circuit tracks what the calls of its chain in this history say about its provider. Of the
    attempts that these calls start, each one is reported once, but those that are in flight or were dropped
    there. -/
theorem breaker_history (globs : Globs) (decode : String → String) (tower : Tower) (config : ProxyConfig)
    (state : ProxyState) (hstate : ProxyState.new decode globs config = .ok state)
    (ok : Server → Action Tasks.Job Input External → Prop) (now : Instant) (w : Server)
    (h : Reached (server globs decode tower state).step ok (.start (state.memory now)) w) :
    ∃ hs : History, (server globs decode tower state).Timeline (state.memory now) hs w.memory ∧
      (∀ id t, w.tasks id = some t → logOf id hs = t.log) ∧
      ∀ key chain, state.chains.lookup key = some chain →
        ((calls key hs).Pairwise fun c d => c.now ≤ d.now) ∧ ∀ p,
        (∀ e, chain.circuitBreaker.entries.lookup p = some e →
          ∃ circuit, (w.memory.chains key).breaker.entries.lookup p = some ⟨e.config, circuit⟩ ∧
            Tracks e.config.effective p (calls key hs) circuit) ∧
        ∃ inFlight : Finset Nat, (∀ id, id ∈ inFlight ↔ ∃ t, w.tasks id = some t ∧ InFlight decode state key p t) ∧
          (calls key hs).countP (·.is .onRequestStart p) =
            (calls key hs).countP (·.is .onSuccess p) + (calls key hs).countP (·.is .onFailure p) +
              inFlight.card := by
  obtain ⟨hs, htime, hlogs⟩ := Runtime.exists_timeline h
  refine ⟨hs, htime, fun id t ht => by simp [hlogs, ht], fun key chain hchain => ⟨calls_clock htime, fun p => ?_⟩⟩
  refine ⟨fun e he => ?_, calls_balanced hstate h hlogs key p⟩
  have hbreaker : (w.memory.chains key).breaker = _ := timeline_breaker htime
  rw [memory_chains hchain] at hbreaker
  obtain ⟨_, _, _, providers, -, rfl, -⟩ := proxyState_chain hstate hchain
  obtain ⟨config', circuit⟩ := e
  obtain rfl : circuit = .closed 0 := (CircuitBreaker.lookup_new he).1
  rw [hbreaker]
  exact tracks_replay he (calls key hs)

/-- The circuit of `a` has opened, that of `b` has not, and no attempt on them is in flight. -/
theorem breaker_history_busy : ∃ (state : ProxyState) (w : Server) (hs : History) (config : ResolvedCircuitBreaker),
    Reached (server literalGlobs id doublingTower state).step (fun _ _ => True) (.start (state.memory 0)) w ∧
      (∀ id t, w.tasks id = some t → logOf id hs = t.log) ∧
      Tracks config.effective ⟨"a"⟩ (calls ⟨"one"⟩ hs) (.opened 1 1000000) ∧
      Tracks config.effective ⟨"b"⟩ (calls ⟨"one"⟩ hs) (.closed 0) ∧
      ∃ inFlight : Finset Nat,
        (∀ i, i ∈ inFlight ↔ ∃ t, w.tasks i = some t ∧ InFlight id state ⟨"one"⟩ ⟨"b"⟩ t) ∧
        (calls ⟨"one"⟩ hs).countP (·.is .onRequestStart ⟨"b"⟩) =
          (calls ⟨"one"⟩ hs).countP (·.is .onSuccess ⟨"b"⟩) + (calls ⟨"one"⟩ hs).countP (·.is .onFailure ⟨"b"⟩) +
            inFlight.card := by
  have hrun : ∃ state chain, ProxyState.new id literalGlobs pairedConfig = .ok state ∧
      state.chains.lookup ⟨"one"⟩ = some chain ∧
      (run (guarded (server literalGlobs id doublingTower state).step fun _ _ => True) (.start (state.memory 0))
        busyRun).any (fun w =>
          decide ((w.memory.chains ⟨"one"⟩).breaker.entries.lookup ⟨"a"⟩ = some ⟨⟨1, 1000000, 1⟩, .opened 1 1000000⟩ ∧
            (w.memory.chains ⟨"one"⟩).breaker.entries.lookup ⟨"b"⟩ = some ⟨⟨1, 1000000, 1⟩, .closed 0⟩)) = true ∧
      chain.circuitBreaker.entries.lookup ⟨"a"⟩ = some ⟨⟨1, 1000000, 1⟩, .closed 0⟩ ∧
      chain.circuitBreaker.entries.lookup ⟨"b"⟩ = some ⟨⟨1, 1000000, 1⟩, .closed 0⟩ :=
    ⟨_, _, rfl, rfl, by decide +kernel, rfl, rfl⟩
  obtain ⟨state, chain, hstate, hchain, hrun, hfirst, hsecond⟩ := hrun
  obtain ⟨w, h, hw⟩ := exists_reached_of_run hrun
  obtain ⟨hopened, hclosed⟩ := of_decide_eq_true hw
  obtain ⟨hs, -, hlogs, hchains⟩ := breaker_history literalGlobs id doublingTower pairedConfig state hstate _ 0 w h
  obtain ⟨-, hone⟩ := hchains _ chain hchain
  obtain ⟨circuit, hcircuit, htracks⟩ := (hone ⟨"a"⟩).1 _ hfirst
  obtain ⟨circuit', hcircuit', htracks'⟩ := (hone ⟨"b"⟩).1 _ hsecond
  rw [hopened] at hcircuit
  rw [hclosed] at hcircuit'
  cases hcircuit
  cases hcircuit'
  exact ⟨state, w, hs, _, h, hlogs, htracks, htracks', (hone ⟨"b"⟩).2⟩

/-! ### The health states -/

/-- The probe results of a chain are those of providers of its pool, and a success reports full support. -/
theorem probes_spec {globs : Globs} {decode : String → String} {tower : Tower} {state : ProxyState}
    {start memory : ServerMemory} {hs : History} {key : ChainKey} {pool : ProviderPool}
    (h : (server globs decode tower state).Timeline start hs memory)
    (hover : HealthService.Over (start.chains key).health.state pool) :
    ∀ r ∈ probes key hs, r.Full ∧ ∃ handle ∈ pool.providers, handle.id = r.provider := by
  induction h with
  | nil => exact fun _ hr => absurd hr List.not_mem_nil
  | @snoc hs m m' happening before happened ih =>
    intro r hr
    rw [probes, List.filterMap_append] at hr
    rcases List.mem_append.mp hr with hr | hr
    · exact ih r hr
    · obtain ⟨x, hx, hprobe⟩ := List.mem_filterMap.mp hr
      obtain rfl := List.mem_singleton.mp hx
      unfold probeOf at hprobe
      split at hprobe
      · rename_i _ k provider client heq
        obtain ⟨rfl, rfl⟩ := Prod.mk.inj heq
        obtain ⟨rfl, hsome⟩ := Option.ite_none_right_eq_some.mp hprobe
        obtain rfl := Option.some.inj hsome
        obtain ⟨hname, hfull⟩ := (ProbeTask.mk provider client m.now).result_spec
        refine ⟨hfull, ?_⟩
        -- The provider of the task came out of the health map.
        obtain ⟨hany, -⟩ := Option.ite_none_right_eq_some.mp happened
        obtain ⟨e, he, heq⟩ := List.any_eq_true.mp hany
        have hat : HealthService.Over (m.chains k).health.state pool := by
          rw [timeline_health before]
          exact hover.replay _
        have hlookup := AList.mem_lookup_iff.mpr he
        obtain ⟨handle, hhandle, hid⟩ := hat.only e.1 e.2 hlookup
        refine ⟨handle, hhandle, hid.trans ((hat.keyed e.1 e.2 hlookup).symm.trans ?_)⟩
        rw [of_decide_eq_true heq]
        exact hname.symm
      · cases hprobe

/-- The health states of a chain are what the results of its probes make of new ones: there is one for each provider
    of the pool and no other, each within the bounds that its own results give, and the best score is attained.
    No result is for a provider outside the pool. -/
theorem health_history (globs : Globs) (decode : String → String) (tower : Tower) (config : ProxyConfig)
    (state : ProxyState) (hstate : ProxyState.new decode globs config = .ok state)
    (ok : Server → Action Tasks.Job Input External → Prop) (now : Instant) (w : Server)
    (h : Reached (server globs decode tower state).step ok (.start (state.memory now)) w) (key : ChainKey)
    (chain : ChainRuntime) (hchain : state.chains.lookup key = some chain) :
    ∃ hs : History, (server globs decode tower state).Timeline (state.memory now) hs w.memory ∧
      (w.memory.chains key).health =
        (HealthService.new chain.loadBalancer.pool.providers chain.tolerance).replay (probes key hs) ∧
      HealthService.Over (w.memory.chains key).health.state chain.loadBalancer.pool ∧
      (∀ p s, (w.memory.chains key).health.state.lookup p = some s →
        HealthService.Bounds (probes key hs) p s ∧
        IsGreatest {x | ∃ q s', (w.memory.chains key).health.state.lookup q = some s' ∧ s'.score = x}
          (w.memory.chains key).health.bestScore) ∧
      ∀ r ∈ probes key hs, r.Full ∧ ∃ handle ∈ chain.loadBalancer.pool.providers, handle.id = r.provider := by
  obtain ⟨hs, htime, -⟩ := Runtime.exists_timeline h
  have hhealth : (w.memory.chains key).health = _ := timeline_health htime
  rw [memory_health hstate hchain now] at hhealth
  have hover : HealthService.Over ((state.memory now).chains key).health.state chain.loadBalancer.pool := by
    rw [memory_health hstate hchain now]
    exact HealthService.over_new _ _
  refine ⟨hs, htime, hhealth, ?_, fun p s hs' => ⟨?_, HealthService.isGreatest_bestScore hs'⟩, probes_spec htime hover⟩
  · rw [hhealth]
    exact (HealthService.over_new _ _).replay _
  · rw [hhealth] at hs'
    obtain ⟨handle, rfl⟩ := HealthService.exists_replay hs'
    exact HealthService.bounds_replay handle _ p

/-- A probe of `b` has succeeded and one of it has failed, as well as one of `a`. -/
theorem health_history_busy : ∃ (state : ProxyState) (w : Server) (hs : History) (a b : ProviderHealthState),
    Reached (server literalGlobs id doublingTower state).step (fun _ _ => True) (.start (state.memory 0)) w ∧
      (w.memory.chains ⟨"one"⟩).health.state.lookup ⟨"a"⟩ = some a ∧
      (w.memory.chains ⟨"one"⟩).health.state.lookup ⟨"b"⟩ = some b ∧
      (a.latestBlock, a.consecutiveFailures) = (none, 1) ∧ (b.latestBlock, b.consecutiveFailures) = (some 1, 1) ∧
      HealthService.Bounds (probes ⟨"one"⟩ hs) ⟨"a"⟩ a ∧ HealthService.Bounds (probes ⟨"one"⟩ hs) ⟨"b"⟩ b := by
  have hrun : ∃ state chain, ProxyState.new id literalGlobs pairedConfig = .ok state ∧
      state.chains.lookup ⟨"one"⟩ = some chain ∧
      (run (guarded (server literalGlobs id doublingTower state).step fun _ _ => True) (.start (state.memory 0))
        busyRun).any (fun w =>
          ((w.memory.chains ⟨"one"⟩).health.state.lookup ⟨"a"⟩).any (fun a =>
            decide ((a.latestBlock, a.consecutiveFailures) = (none, 1))) &&
          ((w.memory.chains ⟨"one"⟩).health.state.lookup ⟨"b"⟩).any fun b =>
            decide ((b.latestBlock, b.consecutiveFailures) = (some 1, 1))) = true :=
    ⟨_, _, rfl, rfl, by decide +kernel⟩
  obtain ⟨state, chain, hstate, hchain, hrun⟩ := hrun
  obtain ⟨w, h, hw⟩ := exists_reached_of_run hrun
  obtain ⟨hwa, hwb⟩ := Bool.and_eq_true_iff.mp hw
  obtain ⟨a, ha, hfailed⟩ := (Option.any_eq_true _ _).mp hwa
  obtain ⟨b, hb, hboth⟩ := (Option.any_eq_true _ _).mp hwb
  obtain ⟨hs, -, -, -, hbounds, -⟩ := health_history literalGlobs id doublingTower pairedConfig state hstate _ 0 w h _
    chain hchain
  exact ⟨state, w, hs, a, b, h, ha, hb, of_decide_eq_true hfailed, of_decide_eq_true hboth, (hbounds _ a ha).1,
    (hbounds _ b hb).1⟩

end Rpceth
