import Rpceth.Theorems.Authentication
import Rpceth.Theorems.TaskAttempts

/-! Which calls leave the server: none without the key of the configuration, none to a provider that is not one of
    the chain of the request, and none that the circuit of the provider has not admitted just before. -/

namespace Rpceth
open Lib Program

/-! ### Admission by the circuit -/

/-- The last access of the log has seen the circuit of `p` available. -/
def SeenAvailable (key : ChainKey) (p : ProviderId) (log : AccessLog) : Prop :=
  ∃ before m, log = before ++ [(m, key, .isAvailable p)] ∧ (m.1.chains key).breaker.isAvailable m.1.now p = true

/-- The log ends with the start of an attempt on `p` that its circuit has just admitted. -/
def JustStarted (key : ChainKey) (p : ProviderId) (log : AccessLog) : Prop :=
  ∃ before m, log = before ++ [(m, key, .onRequestStart p)] ∧ SeenAvailable key p before

/-- Every call in the log was admitted just before. -/
structure AdmittedCalls (key : ChainKey) (s : Progress) (log : AccessLog) : Prop where
  checked : ∀ p, s.phase = .checked p → SeenAvailable key p log
  started : ∀ p, s.phase = .started p → JustStarted key p log
  calls : ∀ before m handle timeout after, log = before ++ (m, key, .forward handle timeout) :: after →
    JustStarted key handle.id before

section
variable {chain : ChainRuntime} {byId : HashMap ProviderId ProviderHandle} {policy : MethodPolicy} {s : Progress}
  {log : AccessLog}

theorem AdmittedCalls.start (key : ChainKey) : AdmittedCalls key .start [] where
  checked := nofun
  started := nofun
  calls _ _ _ _ _ hlog := by simp at hlog

/-- An access that is no call. -/
theorem AdmittedCalls.calls_snoc {key : ChainKey} (h : AdmittedCalls key s log) {entry : Moment × ChainAccess}
    (hentry : ∀ handle timeout, entry.2.2 ≠ .forward handle timeout) :
    ∀ before m handle timeout after, log ++ [entry] = before ++ (m, key, .forward handle timeout) :: after →
      JustStarted key handle.id before := by
  intro before m handle timeout after hsplit
  rcases split_snoc hsplit with ⟨-, rfl⟩ | ⟨after', hlog⟩
  · exact absurd rfl (hentry handle timeout)
  · exact h.calls before m handle timeout after' hlog

theorem AdmittedCalls.step (h : AdmittedCalls chain.id s log) {m : Moment} {op : ChainAccess} {a : op.2.Answer}
    (hallowed : (requestProtocol chain byId policy).allowed s op) (hanswer : answer m op = some a) :
    AdmittedCalls chain.id (s.next op a) (log ++ [(m, op)]) := by
  obtain ⟨key, access⟩ := op
  obtain ⟨hkey, hallowed⟩ := hallowed
  obtain rfl : key = chain.id := hkey
  obtain ⟨failed, phase⟩ := s
  cases access with
  | readEntry | lockRng | delay =>
    obtain rfl : phase = .selecting := hallowed.phase
    exact ⟨nofun, nofun, h.calls_snoc nofun⟩
  | lockCursor lb eligible =>
    obtain rfl : phase = .selecting := hallowed.1.phase
    exact ⟨nofun, nofun, h.calls_snoc nofun⟩
  | isAvailable p =>
    obtain ⟨⟨rfl, -⟩, -, -⟩ := hallowed
    change Bool at a
    cases a with
    | false => exact ⟨nofun, nofun, h.calls_snoc nofun⟩
    | true =>
      have havailable : (m.1.chains chain.id).breaker.isAvailable m.1.now p = true := Option.some.inj hanswer
      refine ⟨fun q hq => ?_, nofun, h.calls_snoc nofun⟩
      obtain rfl := Phase.checked.inj hq
      exact ⟨log, m, rfl, havailable⟩
  | onRequestStart p =>
    obtain rfl : phase = .checked p := hallowed
    refine ⟨nofun, fun q hq => ?_, h.calls_snoc nofun⟩
    obtain rfl := Phase.started.inj hq
    exact ⟨log, m, rfl, h.checked p rfl⟩
  | forward provider timeout =>
    obtain ⟨hphase, -, -⟩ := hallowed
    obtain rfl : phase = .started provider.id := hphase
    refine ⟨nofun, nofun, ?_⟩
    intro before m' handle timeout' after hsplit
    rcases split_snoc hsplit with ⟨rfl, heq⟩ | ⟨after', hlog⟩
    · cases heq
      exact h.started _ rfl
    · exact h.calls before m' handle timeout' after' hlog
  | onSuccess p =>
    obtain ⟨response, hphase⟩ := hallowed
    obtain rfl : phase = .answered p (.ok response) := hphase
    exact ⟨nofun, nofun, h.calls_snoc nofun⟩
  | onFailure p =>
    obtain ⟨message, hphase⟩ := hallowed
    obtain rfl : phase = .answered p (.error message) := hphase
    exact ⟨nofun, nofun, h.calls_snoc nofun⟩

end

/-! ### The provider of a call -/

/-- A provider that the request has started on is one that it has chosen. -/
theorem Accounts.started_mem {chain : ChainRuntime} {byId : HashMap ProviderId ProviderHandle} {policy : MethodPolicy}
    {s : Progress} {log : AccessLog} (h : Accounts chain byId policy s log) {m : Moment} {key : ChainKey}
    {p : ProviderId} (hmem : (m, key, .onRequestStart p) ∈ log) : p ∈ s.providers := by
  have htrace : Event.onRequestStart p ∈ s.events := by
    rw [← h.trace]
    exact List.mem_filter.mpr ⟨List.mem_filterMap.mpr ⟨_, hmem, rfl⟩, rfl⟩
  obtain ⟨failed, phase⟩ := s
  rcases List.mem_append.mp htrace with hfailed | hphase
  · obtain ⟨f, hf, hevent⟩ := List.mem_flatMap.mp hfailed
    obtain rfl : p = f.1 := by simpa [failedAttempt] using hevent
    exact List.mem_append_left _ (List.mem_map_of_mem hf)
  · refine List.mem_append_right _ ?_
    cases phase with
    | selecting | checked => simp [Phase.events] at hphase
    | started | answered | succeeded => simpa [Phase.events, Phase.provider, eq_comm] using hphase

section Provider
variable {globs : Globs} {decode : String → String} {config : ProxyConfig} {state : ProxyState} {key : ChainKey}
  {chain : ChainRuntime}

theorem id_of_chain (hstate : ProxyState.new decode globs config = .ok state)
    (hchain : state.chains.lookup key = some chain) : chain.id = key := by
  obtain ⟨_, _, _, _, -, rfl, -⟩ := proxyState_chain hstate hchain
  rfl

theorem configured_of_lookup (hstate : ProxyState.new decode globs config = .ok state) {p : ProviderId}
    {h : ProviderHandle} (hlookup : state.providersById.lookup p = some h) :
    ∃ provider ∈ config.providers, h = provider.intoHandle := by
  rw [proxyState_providersById hstate] at hlookup
  obtain ⟨handle, hmem, -, rfl⟩ := HashMap.exists_of_lookup_collect hlookup
  obtain ⟨provider, hprovider, rfl⟩ := List.mem_map.mp hmem
  exact ⟨provider, hprovider, rfl⟩

/-- A handle that the requests of a chain use is that of a configured provider. -/
theorem configured_of_known (hstate : ProxyState.new decode globs config = .ok state)
    (hchain : state.chains.lookup key = some chain) {h : ProviderHandle}
    (hknown : Progress.Known chain state.providersById h) : ∃ provider ∈ config.providers, h = provider.intoHandle := by
  rcases hknown with hpool | hlookup
  · obtain ⟨_, _, _, providers, -, rfl, ⟨-, -, rfl⟩ | ⟨entry, -, -, rfl⟩⟩ := proxyState_chain hstate hchain
    · obtain ⟨provider, hprovider, rfl⟩ := List.mem_map.mp hpool
      exact ⟨provider, hprovider, rfl⟩
    · obtain ⟨p, -, hlookup⟩ := List.mem_filterMap.mp hpool
      exact configured_of_lookup hstate hlookup
  · exact configured_of_lookup hstate hlookup

/-- A provider of a chain is one that the configuration lists for it, if there are chains in it. -/
theorem listed_of_chain (hstate : ProxyState.new decode globs config = .ok state)
    (hchain : state.chains.lookup key = some chain) {p : ProviderId} (hp : p ∈ chain.providers) :
    config.chains.entries = [] ∨ ∃ entry, config.chains.lookup key.text = some entry ∧ p ∈ entry.providers := by
  obtain ⟨_, _, _, providers, -, rfl, ⟨hempty, -⟩ | ⟨entry, hentry, -, rfl⟩⟩ := proxyState_chain hstate hchain
  · exact .inl hempty
  · obtain ⟨handle, hhandle, rfl⟩ := List.mem_map.mp (List.mem_toFinset.mp hp)
    obtain ⟨q, hq, hlookup⟩ := List.mem_filterMap.mp hhandle
    rw [lookup_providersById hstate hlookup]
    exact .inr ⟨entry, hentry, hq⟩

end Provider

section Server
variable {globs : Globs} {decode : String → String} {tower : Tower} {config : ProxyConfig} {state : ProxyState}
  {ok : Server → Action Tasks.Job Input External → Prop} {memory : ServerMemory} {w : Server} {id : Nat}
  {t : RequestTask} {chain : ChainRuntime} {before after : AccessLog} {m : Moment} {key : ChainKey}
  {handle : ProviderHandle} {timeout : Duration}

/-- A call in the log of a request goes through its chain, to one of the providers of the chain, and right after
    the start that the circuit admitted. -/
theorem task_call (hstate : ProxyState.new decode globs config = .ok state)
    (h : Reached (server globs decode tower state).step ok (.start memory) w) (ht : w.tasks id = some t)
    (hchain : state.resolveChain decode t.job.call.chainId = .ok chain)
    (hlog : t.log = before ++ (m, key, .forward handle timeout) :: after) :
    key = chain.id ∧ handle.id ∈ chain.providers ∧ JustStarted key handle.id before := by
  have haccounts := task_accounts hstate h ht hchain
  have hadmitted : AdmittedCalls chain.id (progress t.log) t.log :=
    task_invariant_of_chain hstate h ht hchain (.start _) fun _ _ _ _ _ hcalls hallowed hanswer =>
      hcalls.step hallowed hanswer
  have hmem : (m, key, .forward handle timeout) ∈ t.log := by simp [hlog]
  obtain rfl : key = chain.id := haccounts.through _ hmem
  have hstarted := hadmitted.calls before m handle timeout after hlog
  refine ⟨rfl, ?_, hstarted⟩
  -- A started provider is one of those that the request has chosen.
  obtain ⟨front, m', hfront, -⟩ := hstarted
  have hstart : (m', chain.id, .onRequestStart handle.id) ∈ t.log := by simp [hlog, hfront]
  exact haccounts.inChain _ (haccounts.started_mem hstart)

end Server

/-- In every reached state of a server with an accepted configuration, each call to an upstream node was made for a
    request whose last key is the configured one, and through the chain that its path resolves to. It went to a
    configured provider that the chain lists, under the longer one of the two timeouts, and directly after its
    own start on that provider, which the circuit of the chain admitted just before. -/
theorem calls_authorized (parse : String → List (String × String)) (json : List UInt8 → Option Json) (globs : Globs)
    (decode : String → String) (tower : Tower) (config : ProxyConfig) (hvalid : validate config = .ok ())
    (state : ProxyState) (hstate : ProxyState.new decode globs config = .ok state) (memory : ServerMemory) (w : Server)
    (h : Reached (server globs decode tower state).step (Admitted parse json state) (.start memory) w) (id : Nat)
    (t : RequestTask) (ht : w.tasks id = some t) (before after : AccessLog) (m : Moment) (key : ChainKey)
    (handle : ProviderHandle) (timeout : Duration)
    (hlog : t.log = before ++ (m, key, .forward handle timeout) :: after) :
    (∃ route req, serveRpc parse json state route req = .handled t.job.call ∧
        lastParam apiKeyParam (req.params parse) = some config.auth.apiKey) ∧
      trim config.auth.apiKey ≠ "" ∧
      ∃ chain, state.resolveChain decode t.job.call.chainId = .ok chain ∧ chain.id = key ∧
        (∃ provider ∈ config.providers, handle = provider.intoHandle) ∧
        (config.chains.entries = [] ∨
          ∃ entry, config.chains.lookup key.text = some entry ∧ handle.id ∈ entry.providers) ∧
        timeout = max handle.timeout (t.job.policy globs chain).timeout ∧ JustStarted key handle.id before := by
  obtain ⟨w', route, req, hserved⟩ := Runtime.job_admitted h ht
  obtain ⟨hparam, -⟩ := serveRpc_eq_handled hserved
  refine ⟨⟨route, req, hserved, apiKey_new hstate ▸ hparam⟩, (validate_eq_ok hvalid).apiKey, ?_⟩
  cases hchain : state.resolveChain decode t.job.call.chainId with
  | error err =>
    rw [task_unresolved hstate h ht hchain] at hlog
    simp at hlog
  | ok chain =>
    have hmem : (m, key, .forward handle timeout) ∈ t.log := by simp [hlog]
    obtain ⟨rfl, hprovider, hstarted⟩ := task_call hstate h ht hchain hlog
    obtain ⟨hknown, htimeout⟩ := (task_accounts hstate h ht hchain).forwards _ hmem handle timeout rfl
    obtain ⟨key', hkey⟩ := lookup_of_resolveChain hchain
    obtain rfl : chain.id = key' := id_of_chain hstate hkey
    exact ⟨chain, rfl, rfl, configured_of_known hstate hkey hknown, listed_of_chain hstate hkey hprovider, htimeout,
      hstarted⟩

theorem calls_authorized_failing : ∃ (state : ProxyState) (w : Server) (t : RequestTask) (before : AccessLog)
    (m : Moment) (handle : ProviderHandle),
    Reached (server literalGlobs id doublingTower state).step
        (Admitted (fun _ => [("apikey", "secret"), ("provider_id", "a")]) (fun _ => some .null) state)
        (.start (state.memory 0)) w ∧
      w.tasks 0 = some t ∧ (∃ timeout after, t.log = before ++ (m, ⟨"default"⟩, .forward handle timeout) :: after) ∧
      JustStarted ⟨"default"⟩ handle.id before := by
  obtain ⟨state, _, w, t, hstate, -, -, hrun, ht, -, before, m, handle, timeout, after, hlog⟩ := failingRequest_run
  have hadmitted : ∀ action ∈ failingRequest 0, ∀ w, Admitted (fun _ => [("apikey", "secret"), ("provider_id", "a")])
      (fun _ => some .null) state w action := by
    have hkey : state.apiKey = "secret" := apiKey_new hstate
    rintro action haction w
    rcases List.mem_cons.mp haction with rfl | haction
    · exact ⟨.default, ⟨"/", some "", []⟩, by simp [serveRpc, authenticateRequest, hkey]; rfl⟩
    · rw [List.eq_of_mem_replicate haction]
      trivial
  have h := reached_of_run_of_forall hadmitted hrun
  obtain ⟨-, -, chain, -, -, -, -, -, hstarted⟩ := calls_authorized _ _ literalGlobs id doublingTower fragileConfig
    (by rfl) state hstate _ w h 0 t ht before after m _ handle timeout hlog
  exact ⟨state, w, t, before, m, handle, h, ht, ⟨timeout, after, hlog⟩, hstarted⟩

end Rpceth
