import Rpceth.Theorems.ChainResolution
import Rpceth.Theorems.Readiness
import Rpceth.Theorems.ServerHistory

/-! The start of the server from an accepted configuration: when `ProxyState::new` panics, what it builds when it
    does not, and that it is ready until an attempt fails. -/

namespace Rpceth
open Lib Runtime

/-! ### The patterns -/

/-- What validation does not look at: the patterns of the overrides compile, each by itself and all together. -/
def ProxyConfig.Compiles (config : ProxyConfig) (globs : Globs) : Prop :=
  (∀ o ∈ config.methods.overrides, globs.parseError o.pattern = none) ∧
    globs.buildError (config.methods.overrides.map (·.pattern)) = none

/-- The error names the first pattern that does not parse, or the set. -/
inductive ProxyConfig.Fails (config : ProxyConfig) (globs : Globs) : MethodRegistryError → Prop where
  | pattern {before after : List MethodOverrideConfig} {o : MethodOverrideConfig} {source : String}
      (overrides : config.methods.overrides = before ++ o :: after)
      (parsed : ∀ b ∈ before, globs.parseError b.pattern = none) (error : globs.parseError o.pattern = some source) :
      Fails config globs (.invalidGlob o.pattern source)
  | set {source : String} (parsed : ∀ o ∈ config.methods.overrides, globs.parseError o.pattern = none)
      (error : globs.buildError (config.methods.overrides.map (·.pattern)) = some source) :
      Fails config globs (.invalidGlob "<set>" source)

section
variable {decode : String → String} {globs : Globs} {config : ProxyConfig}

theorem ProxyConfig.Fails.not_compiles {e : MethodRegistryError} (h : config.Fails globs e) :
    ¬config.Compiles globs := by
  rintro ⟨hparse, hbuild⟩
  cases h with
  | @pattern before after o source overrides _ error =>
    have hmem : o ∈ config.methods.overrides := overrides ▸ List.mem_append_right before List.mem_cons_self
    cases (hparse o hmem).symm.trans error
  | set _ error => cases hbuild.symm.trans error

theorem registry_cases (globs : Globs) (config : ProxyConfig) :
    (∃ registry, MethodRegistry.new globs config = .ok registry ∧ config.Compiles globs) ∨
      ∃ e, MethodRegistry.new globs config = .error e ∧ config.Fails globs e := by
  have hpatterns : ∀ groups defaults, (buildOverridePolicies config.methods.overrides groups defaults).map (·.pattern) =
      config.methods.overrides.map (·.pattern) := by
    intro groups defaults
    rw [buildOverridePolicies, List.map_map]
    rfl
  unfold MethodRegistry.new OverrideSet.new
  simp only [hpatterns]
  cases hparse : (config.methods.overrides.map (·.pattern)).findSome? fun pattern =>
      (globs.parseError pattern).map (pattern, ·) with
  | some failure =>
    obtain ⟨pattern, source⟩ := failure
    obtain ⟨before, pattern', after, hlist, herror, hbefore⟩ := List.findSome?_eq_some_iff.mp hparse
    obtain ⟨source', hsource, heq⟩ := Option.map_eq_some_iff.mp herror
    obtain ⟨rfl, rfl⟩ := Prod.mk.inj heq
    obtain ⟨before', rest, hoverrides, rfl, hrest⟩ := List.map_eq_append_iff.mp hlist
    obtain ⟨o, after', rfl, rfl, rfl⟩ := List.map_eq_cons_iff.mp hrest
    refine .inr ⟨_, rfl, .pattern hoverrides (fun b hb => ?_) hsource⟩
    exact Option.map_eq_none_iff.mp (hbefore b.pattern (List.mem_map_of_mem hb))
  | none =>
    have hall : ∀ o ∈ config.methods.overrides, globs.parseError o.pattern = none := fun o ho =>
      Option.map_eq_none_iff.mp (List.findSome?_eq_none_iff.mp hparse o.pattern (List.mem_map_of_mem ho))
    cases hbuild : globs.buildError (config.methods.overrides.map (·.pattern)) with
    | some source => exact .inr ⟨_, rfl, .set hall hbuild⟩
    | none => exact .inl ⟨_, rfl, hall, hbuild⟩

theorem proxyState_cases (decode : String → String) (globs : Globs) (config : ProxyConfig) :
    (∃ state, ProxyState.new decode globs config = .ok state ∧ config.Compiles globs) ∨
      ∃ e, ProxyState.new decode globs config = .error e ∧ config.Fails globs e := by
  unfold ProxyState.new
  rcases registry_cases globs config with ⟨registry, hreg, hcompiles⟩ | ⟨e, hreg, hfails⟩
  · left
    simp only [hreg]
    split
    · exact ⟨_, rfl, hcompiles⟩
    · exact ⟨_, rfl, hcompiles⟩
  · right
    simp only [hreg]
    exact ⟨e, rfl, hfails⟩

/-! ### The state -/

variable {state : ProxyState}

/-- What requests to a server that has just started find. -/
structure ProxyState.Serves (decode : String → String) (state : ProxyState) : Prop where
  default : ∃ key chain, state.chains.lookup key = some chain ∧
    ∀ request, request = none ∨ request = some "" → state.resolveChain decode request = .ok chain
  nonempty : ∀ key chain, state.chains.lookup key = some chain → chain.providers.Nonempty
  provider : ∀ key chain, state.chains.lookup key = some chain → ∀ p ∈ chain.providers,
    (∃ handle, state.providersById.lookup p = some handle ∧ handle.id = p) ∧
    (∃ e, chain.circuitBreaker.entries.lookup p = some e ∧ e.state = .closed 0) ∧
    ∃ health handle, chain.healthService = some health ∧ handle.id = p ∧ health.state.lookup p = some (.new handle)

theorem chain_nonempty (hvalid : validate config = .ok ()) (hstate : ProxyState.new decode globs config = .ok state)
    {key : ChainKey} {chain : ChainRuntime} (hchain : state.chains.lookup key = some chain) :
    chain.providers.Nonempty := by
  obtain ⟨registry, aliases, tolerance, providers, -, rfl, hproviders⟩ := proxyState_chain hstate hchain
  have hne : providers ≠ [] := by
    rcases hproviders with ⟨-, -, rfl⟩ | ⟨entry, hentry, -, rfl⟩
    · exact fun hnil => (validate_eq_ok hvalid).nonempty (List.map_eq_nil_iff.mp hnil)
    · have hentry := validateChains_valid (validate_eq_ok hvalid).chains hentry
      obtain ⟨id, hid⟩ := List.exists_mem_of_ne_nil _ hentry.nonempty
      obtain ⟨handle, hhandle, -⟩ := lookup_handle hstate (List.mem_toFinset.mp (hentry.providers id hid))
      exact List.ne_nil_of_mem (List.mem_filterMap.mpr ⟨id, hid, hhandle⟩)
  obtain ⟨handle, hhandle⟩ := List.exists_mem_of_ne_nil _ hne
  exact ⟨handle.id, List.mem_toFinset.mpr (List.mem_map_of_mem hhandle)⟩

/-- The runtime of a chain as it was built. -/
theorem chain_provider (hstate : ProxyState.new decode globs config = .ok state) {key : ChainKey}
    {chain : ChainRuntime} (hchain : state.chains.lookup key = some chain) {p : ProviderId}
    (hp : p ∈ chain.providers) :
    (∃ e, chain.circuitBreaker.entries.lookup p = some e ∧ e.state = .closed 0) ∧
      ∃ health handle, chain.healthService = some health ∧ handle.id = p ∧
        health.state.lookup p = some (.new handle) := by
  obtain ⟨registry, aliases, tolerance, providers, -, rfl, -⟩ := proxyState_chain hstate hchain
  obtain ⟨handle, hhandle, rfl⟩ := List.mem_map.mp (List.mem_toFinset.mp hp)
  constructor
  · obtain ⟨e, he⟩ := HashMap.exists_lookup_collect hhandle (·.id) fun h : ProviderHandle =>
      ProviderCircuit.mk (ResolvedCircuitBreaker.fromConfigs config.circuitBreaker h.circuitBreaker) (.closed 0)
    exact ⟨e, he, (CircuitBreaker.lookup_new he).1⟩
  · have hnonempty : providers.isEmpty = false := List.isEmpty_eq_false_iff.mpr (List.ne_nil_of_mem hhandle)
    obtain ⟨s, hs⟩ := HashMap.exists_lookup_collect hhandle (·.id) ProviderHealthState.new
    obtain ⟨handle', -, hid, rfl⟩ := HashMap.exists_of_lookup_collect hs
    exact ⟨.new providers tolerance, handle', by simp [buildChainRuntime, hnonempty], hid, hs⟩

theorem serves (hvalid : validate config = .ok ()) (hstate : ProxyState.new decode globs config = .ok state) :
    state.Serves decode where
  default := by
    rcases registry_cases globs config with ⟨registry, hreg, -⟩ | ⟨e, hreg, -⟩
    · by_cases hne : config.chains.entries = []
      · obtain ⟨hruntime, -, hkey⟩ := proxyState_legacy hne hreg hstate
        exact ⟨_, _, hruntime, fun request hrequest => resolveChain_default hkey hruntime hrequest⟩
      · obtain ⟨key, chain, -, hchain, hresolve⟩ :=
          resolveChain_configured (validate_eq_ok hvalid).chains hne hreg hstate
        exact ⟨⟨key⟩, _, lookup_chains hne hreg hstate hchain, hresolve⟩
    · unfold ProxyState.new at hstate
      simp only [hreg] at hstate
      cases hstate
  nonempty _ _ hchain := chain_nonempty hvalid hstate hchain
  provider _ _ hchain _ hp := ⟨exists_handle hstate hchain hp, chain_provider hstate hchain hp⟩

end

/-! ### The clients -/

/-- The chains that a state is built with. -/
def ProxyConfig.chainKeys (config : ProxyConfig) : List ChainKey :=
  if config.chains.entries.isEmpty then [⟨"default"⟩] else config.chains.pairs.map fun (chainId, _) => ⟨chainId⟩

section
variable {decode : String → String} {globs : Globs} {config : ProxyConfig} {state : ProxyState}

theorem exists_chain_iff (hstate : ProxyState.new decode globs config = .ok state) {key : ChainKey} :
    (∃ chain, state.chains.lookup key = some chain) ↔ key ∈ config.chainKeys := by
  rcases registry_cases globs config with ⟨registry, hreg, -⟩ | ⟨e, hreg, -⟩
  · unfold ProxyConfig.chainKeys
    by_cases hne : config.chains.entries = []
    · rw [hne, List.isEmpty_nil, if_pos rfl, List.mem_singleton]
      constructor
      · rintro ⟨chain, hchain⟩
        by_contra hother
        unfold ProxyState.new at hstate
        simp only [hreg, hne, List.isEmpty_nil, ↓reduceIte] at hstate
        cases hstate
        rw [AList.lookup_insert_ne hother, AList.lookup_empty] at hchain
        cases hchain
      · rintro rfl
        exact ⟨_, (proxyState_legacy hne hreg hstate).1⟩
    · rw [if_neg (by simpa using hne), List.mem_map]
      constructor
      · rintro ⟨chain, hchain⟩
        obtain ⟨_, _, _, _, -, -, ⟨hempty, -⟩ | ⟨entry, hentry, -⟩⟩ := proxyState_chain hstate hchain
        · exact absurd hempty hne
        · exact ⟨(key.text, entry), HashMap.mem_pairs.mpr hentry, rfl⟩
      · rintro ⟨⟨chainId, entry⟩, hentry, rfl⟩
        exact ⟨_, lookup_chains hne hreg hstate (HashMap.mem_pairs.mp hentry)⟩
  · unfold ProxyState.new at hstate
    simp only [hreg] at hstate
    cases hstate

/-- The client of the server can be built, and those of the probes of all chains. -/
structure HttpClients.Build (clients : HttpClients) (config : ProxyConfig) : Prop where
  server : clients.server = true
  probe : ∀ key ∈ config.chainKeys, clients.probe key = true

/-- What the server panics with: the first of the three that fails. -/
inductive ProxyConfig.Panics (config : ProxyConfig) (globs : Globs) (clients : HttpClients) : StartPanic → Prop where
  | client (fails : clients.server = false) : Panics config globs clients .client
  | registry {e : MethodRegistryError} (built : clients.server = true) (fails : config.Fails globs e) :
      Panics config globs clients (.registry e)
  | probeClient {key : ChainKey} (built : clients.server = true) (compiles : config.Compiles globs)
      (configured : key ∈ config.chainKeys) (fails : clients.probe key = false) :
      Panics config globs clients .probeClient

theorem ProxyConfig.Panics.not_starts {clients : HttpClients} {panic : StartPanic}
    (h : config.Panics globs clients panic) : ¬(clients.Build config ∧ config.Compiles globs) := by
  rintro ⟨hbuild, hcompiles⟩
  cases h with
  | client fails => cases hbuild.server.symm.trans fails
  | registry _ fails => exact fails.not_compiles hcompiles
  | probeClient _ _ configured fails => cases (hbuild.probe _ configured).symm.trans fails

/-- Every chain has providers, so every chain needs the client of its probe. -/
theorem any_failFor_iff (hvalid : validate config = .ok ()) (hstate : ProxyState.new decode globs config = .ok state)
    {clients : HttpClients} :
    state.chains.pairs.any clients.failFor = true ↔ ∃ key ∈ config.chainKeys, clients.probe key = false := by
  simp only [List.any_eq_true, HttpClients.failFor, Bool.and_eq_true, Bool.not_eq_true', Prod.exists, HashMap.mem_pairs]
  constructor
  · rintro ⟨key, chain, hchain, -, hfails⟩
    exact ⟨key, (exists_chain_iff hstate).mp ⟨chain, hchain⟩, hfails⟩
  · rintro ⟨key, hkey, hfails⟩
    obtain ⟨chain, hchain⟩ := (exists_chain_iff hstate).mpr hkey
    obtain ⟨p, hp⟩ := chain_nonempty hvalid hstate hchain
    obtain ⟨-, health, -, hhealth, -⟩ := chain_provider hstate hchain hp
    exact ⟨key, chain, hchain, by rw [hhealth]; rfl, hfails⟩

theorem start_cases (hvalid : validate config = .ok ()) (decode : String → String) (globs : Globs)
    (clients : HttpClients) :
    (∃ state, ProxyState.start decode globs clients config = .ok state ∧
      ProxyState.new decode globs config = .ok state ∧ clients.Build config ∧ config.Compiles globs) ∨
    ∃ panic, ProxyState.start decode globs clients config = .error panic ∧ config.Panics globs clients panic := by
  unfold ProxyState.start
  cases hserver : clients.server with
  | false => exact .inr ⟨_, rfl, .client hserver⟩
  | true =>
    rcases proxyState_cases decode globs config with ⟨state, hstate, hcompiles⟩ | ⟨e, herror, hfails⟩
    · simp only [hstate, any_failFor_iff hvalid hstate, Bool.not_true, Bool.false_eq_true, ↓reduceIte]
      by_cases hprobe : ∃ key ∈ config.chainKeys, clients.probe key = false
      · obtain ⟨key, hkey, hfails⟩ := hprobe
        exact .inr ⟨_, if_pos ⟨key, hkey, hfails⟩, .probeClient hserver hcompiles hkey hfails⟩
      · have hbuild : clients.Build config :=
          ⟨hserver, fun key hkey => Bool.not_eq_false _ |>.mp fun hfails => hprobe ⟨key, hkey, hfails⟩⟩
        exact .inl ⟨state, if_neg hprobe, rfl, hbuild, hcompiles⟩
    · simp only [herror, Bool.not_true, Bool.false_eq_true, ↓reduceIte]
      exact .inr ⟨_, rfl, .registry hserver hfails⟩

end

/-- An accepted configuration: the server starts exactly if its clients can be built and the patterns of its overrides
    compile, and otherwise panics at the first of these that fails, with the first pattern that does not parse. When
    it has started, the default chain resolves, every chain has a provider, and every provider of a chain has a
    handle, a closed circuit without failures and a health state without probes. -/
theorem startup_exact (decode : String → String) (globs : Globs) (clients : HttpClients) (config : ProxyConfig)
    (hvalid : validate config = .ok ()) :
    ((∃ state, ProxyState.start decode globs clients config = .ok state) ↔
        clients.Build config ∧ config.Compiles globs) ∧
      (∀ panic, ProxyState.start decode globs clients config = .error panic → config.Panics globs clients panic) ∧
      ∀ state, ProxyState.start decode globs clients config = .ok state → state.Serves decode := by
  rcases start_cases hvalid decode globs clients with ⟨state, hstart, hstate, hgood⟩ | ⟨panic, hstart, hpanics⟩
  · refine ⟨iff_of_true ⟨state, hstart⟩ hgood, fun panic hpanic => ?_, fun state' hstart' => ?_⟩
    · cases hstart.symm.trans hpanic
    · cases hstart.symm.trans hstart'
      exact serves hvalid hstate
  · refine ⟨iff_of_false ?_ hpanics.not_starts, fun panic' hpanic => ?_, fun state hstart' => ?_⟩
    · rintro ⟨state, hstart'⟩
      cases hstart.symm.trans hstart'
    · cases hstart.symm.trans hpanic
      exact hpanics
    · cases hstart.symm.trans hstart'

/-- Two chains, and two overrides, the second one with a class that is not closed. -/
def unclosedConfig : ProxyConfig :=
  { pairedConfig with methods := { overrides := [{ pattern := "eth_*" }, { pattern := "debug_[a" }] } }

def bracketGlobs : Globs :=
  { literalGlobs with
    parseError := fun pattern => if pattern = "debug_[a" then some "unclosed character class" else none }

def allClients : HttpClients := ⟨true, fun _ => true⟩

/-- The pattern stops the start. Where it compiles, the client of the probes of the second chain may stop it. -/
theorem startup_exact_small : validate unclosedConfig = .ok () ∧
    unclosedConfig.Fails bracketGlobs (.invalidGlob "debug_[a" "unclosed character class") ∧
    (¬∃ state, ProxyState.start id literalGlobs ⟨true, fun key => key.text == "one"⟩ unclosedConfig = .ok state) ∧
    ∃ state, ProxyState.start id literalGlobs allClients unclosedConfig = .ok state ∧ state.Serves id := by
  have hvalid : validate unclosedConfig = .ok () := by rfl
  obtain ⟨-, hpanics, -⟩ := startup_exact id bracketGlobs allClients unclosedConfig hvalid
  obtain ⟨hiff, -⟩ := startup_exact id literalGlobs ⟨true, fun key => key.text == "one"⟩ unclosedConfig hvalid
  obtain ⟨-, -, hserves⟩ := startup_exact id literalGlobs allClients unclosedConfig hvalid
  refine ⟨hvalid, ?_, fun hstarts => ?_, _, rfl, hserves _ rfl⟩
  · cases hpanics (.registry (.invalidGlob "debug_[a" "unclosed character class")) (by rfl) with
    | registry _ fails => exact fails
  · have hprobe := (hiff.mp hstarts).1.probe ⟨"two"⟩ (by decide +kernel)
    cases hprobe

/-! ### Until the first failure -/

/-- Every circuit is closed without failures. -/
def CircuitBreaker.Quiet (b : CircuitBreaker) : Prop := ∀ p e, b.entries.lookup p = some e → e.state = .closed 0

namespace CircuitBreaker.Quiet
variable {b : CircuitBreaker}

theorem isAvailable (h : b.Quiet) (now : Instant) (p : ProviderId) : b.isAvailable now p = true := by
  unfold CircuitBreaker.isAvailable
  cases hentry : b.entries.lookup p with
  | none => rfl
  | some e =>
    simp only [h p e hentry]
    rfl

/-- Only a failure ends it. -/
theorem call (h : b.Quiet) {c : Call} (hc : c.kind ≠ .onFailure) : (b.call c).Quiet := by
  intro p e hentry
  by_cases hp : p = c.provider
  · subst hp
    rw [lookup_call] at hentry
    obtain ⟨⟨config, circuit⟩, he, rfl⟩ := Option.map_eq_some_iff.mp hentry
    obtain rfl : circuit = .closed 0 := h _ _ he
    obtain ⟨kind, provider, now⟩ := c
    cases kind with
    | onRequestStart | onSuccess => rfl
    | onFailure => exact absurd rfl hc
  · rw [lookup_call_ne hp] at hentry
    exact h p e hentry

theorem replay (h : b.Quiet) {calls : List Call} (hcalls : ∀ c ∈ calls, c.kind ≠ .onFailure) :
    (b.replay calls).Quiet := by
  induction calls generalizing b with
  | nil => exact h
  | cons c calls ih =>
    exact ih (h.call (hcalls c List.mem_cons_self)) fun c' hc' => hcalls c' (List.mem_cons_of_mem c hc')

end CircuitBreaker.Quiet

theorem onFailure_of_call? {a : Access} {p : ProviderId} (h : a.call? = some (.onFailure, p)) : a = .onFailure p := by
  cases a <;> cases h
  rfl

/-- The server has started from an accepted configuration, and no attempt has failed so far: the readiness check
    answers 200, whatever requests are under way or were dropped, and whatever the probes have found. -/
theorem ready_until_failure (globs : Globs) (decode : String → String) (tower : Tower) (config : ProxyConfig)
    (hvalid : validate config = .ok ()) (state : ProxyState) (hstate : ProxyState.new decode globs config = .ok state)
    (ok : Server → Action Tasks.Job Input External → Prop) (now : Instant) (w : Server)
    (h : Reached (server globs decode tower state).step ok (.start (state.memory now)) w)
    (hquiet : ∀ id t, w.tasks id = some t → ∀ entry ∈ t.log, ∀ p, entry.2.2 ≠ .onFailure p) (order : SetOrder)
    (timestamp : String) :
    (readinessHandler order (fun key p => (w.memory.chains key).breaker.isAvailable w.memory.now p) state
      timestamp).status = 200 := by
  obtain ⟨hs, htime, hlogs⟩ := Runtime.exists_timeline h
  have hcalls : ∀ key, ∀ c ∈ calls key hs, c.kind ≠ .onFailure := by
    intro key c hc
    obtain ⟨access, haccess, hcall⟩ := List.mem_filterMap.mp hc
    obtain ⟨t, ht, hentry⟩ := task_of_access hlogs haccess
    obtain ⟨-, hmap⟩ := Option.ite_none_right_eq_some.mp hcall
    obtain ⟨⟨kind, p⟩, hkind, rfl⟩ := Option.map_eq_some_iff.mp hmap
    rintro rfl
    exact hquiet _ t ht _ hentry p (onFailure_of_call? hkind)
  have hready : (readinessCheck order (fun key p => (w.memory.chains key).breaker.isAvailable w.memory.now p)
      state).ready = true := by
    refine (ready_iff hstate).mpr fun key chain hchain => ⟨chain_nonempty hvalid hstate hchain, fun p _ => ?_⟩
    have hstart : (state.memory now).chains key = chain.memory := memory_chains hchain now
    refine CircuitBreaker.Quiet.isAvailable ?_ _ _
    rw [timeline_breaker htime, hstart]
    refine CircuitBreaker.Quiet.replay ?_ (hcalls key)
    obtain ⟨_, _, _, providers, -, rfl, -⟩ := proxyState_chain hstate hchain
    exact fun p e he => (CircuitBreaker.lookup_new he).1
  simp [readinessHandler, ReadinessCheck.response, hready]

/-- A request has started on the provider and waits for its upstream. -/
theorem startedRequest_run : ∃ state w, ProxyState.new id literalGlobs smallConfig = .ok state ∧
    run (server literalGlobs id doublingTower state).step (.start (state.memory 0))
      (.spawn 0 overrideJob :: List.replicate 2 (.access 0 failingInput)) = some w ∧
    (∃ t, w.tasks 0 = some t ∧
      t.log.map Prod.snd = [⟨⟨"default"⟩, .isAvailable ⟨"a"⟩⟩, ⟨⟨"default"⟩, .onRequestStart ⟨"a"⟩⟩]) ∧
    ∀ n, w.tasks (n + 1) = none :=
  ⟨_, _, rfl, rfl, ⟨_, rfl, rfl⟩, fun _ => rfl⟩

theorem ready_until_failure_started : ∃ (state : ProxyState) (w : Server) (t : RequestTask),
    w.tasks 0 = some t ∧ t.log.length = 2 ∧
      (readinessHandler anyOrder (fun key p => (w.memory.chains key).breaker.isAvailable w.memory.now p) state
        "").status = 200 := by
  obtain ⟨state, w, hstate, hrun, ⟨t, ht, hlog⟩, hnone⟩ := startedRequest_run
  have hlen : t.log.length = 2 := by rw [← List.length_map (f := Prod.snd), hlog]; rfl
  refine ⟨state, w, t, ht, hlen, ?_⟩
  refine ready_until_failure literalGlobs id doublingTower smallConfig rfl state hstate (fun _ _ => True) 0 w
    (reached_of_run_of_forall (fun _ _ _ => trivial) hrun) ?_ anyOrder ""
  intro id t' ht' entry hentry p heq
  cases id with
  | zero =>
    obtain rfl := Option.some.inj (ht.symm.trans ht')
    have hmem : entry.2 ∈ t.log.map Prod.snd := List.mem_map_of_mem hentry
    rw [hlog] at hmem
    rcases List.mem_cons.mp hmem with hentry | hmem
    · rw [hentry] at heq
      cases heq
    · rw [List.mem_singleton.mp hmem] at heq
      cases heq
  | succ n => cases (hnone n).symm.trans ht'

end Rpceth
