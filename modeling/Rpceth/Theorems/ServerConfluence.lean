import Rpceth.Lib.Commute
import Rpceth.Theorems.ServerHistory

/-! The order in which requests and probes of different providers take effect does not matter: the circuits and the
    health states of a chain depend only on what each provider was reported, in its own order. -/

namespace Rpceth
open Lib Runtime

theorem CircuitBreaker.call_eq (b : CircuitBreaker) (c : Call) :
    b.call c = b.updateState c.provider fun config s => s.call config c := by
  obtain ⟨kind, provider, now⟩ := c
  cases kind <;> rfl

theorem CircuitBreaker.call_independent : Independent CircuitBreaker.call Call.provider := by
  intro b c d hne
  simp only [call_eq, updateState]
  rw [HashMap.modify_comm hne]

theorem HealthService.apply_eq (h : HealthService) (r : ProbeResult) :
    h.apply r = { h with state := HashMap.modify h.state r.provider (·.apply r) } := by
  cases r <;> rfl

theorem HealthService.apply_independent : Independent HealthService.apply ProbeResult.provider := by
  intro h r r' hne
  simp only [apply_eq]
  rw [HashMap.modify_comm hne]

/-- A round of probes, one for each provider, leaves the same health states in whatever order its probes end. -/
theorem HealthService.replay_perm (h : HealthService) {round round' : List ProbeResult} (hperm : round.Perm round')
    (hdistinct : (round.map ProbeResult.provider).Nodup) : h.replay round = h.replay round' :=
  apply_independent.foldl_eq (ofKey_of_perm hperm hdistinct) h

/-- Two histories of a server, of any requests and probes in any order, that say the same about each provider of a
    chain, in the same order for each: the circuits and the health states of the chain are the same after both, so
    what is available and what passes the health filter is the same, too. -/
theorem server_confluent (globs : Globs) (decode : String → String) (tower : Tower) (state : ProxyState)
    (start memory memory' : ServerMemory) (hs hs' : History)
    (h : (server globs decode tower state).Timeline start hs memory)
    (h' : (server globs decode tower state).Timeline start hs' memory') (key : ChainKey)
    (hcalls : ∀ p, ofKey Call.provider p (calls key hs) = ofKey Call.provider p (calls key hs'))
    (hprobes : ∀ p, ofKey ProbeResult.provider p (probes key hs) = ofKey ProbeResult.provider p (probes key hs')) :
    (memory.chains key).breaker = (memory'.chains key).breaker ∧
      (memory.chains key).health = (memory'.chains key).health := by
  rw [timeline_breaker h, timeline_breaker h', timeline_health h, timeline_health h']
  exact ⟨CircuitBreaker.call_independent.foldl_eq hcalls _, HealthService.apply_independent.foldl_eq hprobes _⟩

/-- Two providers, no chains, and otherwise the defaults. -/
def pairConfig : ProxyConfig :=
  { smallConfig with
    providers := [{ id := ⟨"a"⟩, url := "https://a.example" }, { id := ⟨"b"⟩, url := "https://b.example" }] }

/-- A probe of the provider ends; its upstream has answered with error objects. -/
def probeEnds (provider : ProviderHandle) : Happening ChainAccess Input External :=
  .outside (.probed ⟨"default"⟩ provider JsonRpcHealthProbe.erroring)

theorem probes_probeEnds {m m' : ServerMemory} (hm : m.now = 0) (hm' : m'.now = 0) (p q : ProviderHandle) :
    probes ⟨"default"⟩ ([] ++ [(m, probeEnds p)] ++ [(m', probeEnds q)]) =
      [(ProbeTask.mk p JsonRpcHealthProbe.erroring 0).result,
        (ProbeTask.mk q JsonRpcHealthProbe.erroring 0).result] := by
  simp [probes, probeOf, probeEnds, ProbeTask.result, hm, hm']

theorem bothOrders : ∃ (state : ProxyState) (m₁ m₂ n₁ n₂ : ServerMemory),
    ProxyState.new id literalGlobs pairConfig = .ok state ∧
      (server literalGlobs id doublingTower state).happen (state.memory 0) (probeEnds firstProvider) = some m₁ ∧
      (server literalGlobs id doublingTower state).happen m₁ (probeEnds secondProvider) = some m₂ ∧
      (server literalGlobs id doublingTower state).happen (state.memory 0) (probeEnds secondProvider) = some n₁ ∧
      (server literalGlobs id doublingTower state).happen n₁ (probeEnds firstProvider) = some n₂ ∧
      m₁.now = 0 ∧ n₁.now = 0 :=
  ⟨_, _, _, _, _, rfl, rfl, rfl, rfl, rfl, rfl, rfl⟩

theorem server_confluent_probes : ∃ (state : ProxyState) (memory memory' : ServerMemory) (hs hs' : History),
    ProxyState.new id literalGlobs pairConfig = .ok state ∧
      (server literalGlobs id doublingTower state).Timeline (state.memory 0) hs memory ∧
      (server literalGlobs id doublingTower state).Timeline (state.memory 0) hs' memory' ∧
      hs.map Prod.snd = [probeEnds firstProvider, probeEnds secondProvider] ∧
      hs'.map Prod.snd = [probeEnds secondProvider, probeEnds firstProvider] ∧
      (memory.chains ⟨"default"⟩).health = (memory'.chains ⟨"default"⟩).health := by
  obtain ⟨state, m₁, m₂, n₁, n₂, hstate, hm₁, hm₂, hn₁, hn₂, hm, hn⟩ := bothOrders
  have htime : (server literalGlobs id doublingTower state).Timeline (state.memory 0) _ m₂ :=
    .snoc (.snoc .nil hm₁) hm₂
  have htime' : (server literalGlobs id doublingTower state).Timeline (state.memory 0) _ n₂ :=
    .snoc (.snoc .nil hn₁) hn₂
  refine ⟨state, m₂, n₂, _, _, hstate, htime, htime', rfl, rfl, ?_⟩
  refine (server_confluent literalGlobs id doublingTower state _ m₂ n₂ _ _ htime htime' ⟨"default"⟩ (fun p => rfl)
    fun p => ?_).2
  rw [probes_probeEnds rfl hm, probes_probeEnds rfl hn]
  exact ofKey_of_perm (.swap _ _ []) (by decide) p

end Rpceth
