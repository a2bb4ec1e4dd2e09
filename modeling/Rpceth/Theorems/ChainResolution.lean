import Rpceth.Theorems.ChainValidation
import Rpceth.Theorems.RequestLoop
import Rpceth.Theorems.RoundRobin

/-! What the chain table leads to: the chain of every request path, and the pool of every chain. -/

namespace Rpceth
open Lib

section Table
variable {decode : String → String} {globs : Globs} {config : ProxyConfig} {registry : MethodRegistry}
  {state : ProxyState}

/-- What a state built from a configuration without chains holds. -/
theorem proxyState_legacy (hempty : config.chains.entries = []) (hreg : MethodRegistry.new globs config = .ok registry)
    (h : ProxyState.new decode globs config = .ok state) :
    state.chains.lookup ⟨"default"⟩ = some (buildChainRuntime decode ⟨"default"⟩ [] config.strategy .balanced
      (config.providers.map ProviderConfig.intoHandle) config registry) ∧
    state.aliasMap = ∅ ∧ state.defaultChain = some ⟨"default"⟩ := by
  unfold ProxyState.new at h
  simp only [hreg, hempty, List.isEmpty_nil, ↓reduceIte] at h
  cases h
  exact ⟨AList.lookup_insert _, rfl, rfl⟩

theorem proxyState_defaultChain (hne : config.chains.entries ≠ [])
    (hreg : MethodRegistry.new globs config = .ok registry) (h : ProxyState.new decode globs config = .ok state) :
    state.defaultChain = config.defaultChain.bind fun id => state.chains.keys.find? fun k => k.text == id := by
  unfold ProxyState.new at h
  simp only [hreg, List.isEmpty_iff, hne, ↓reduceIte] at h
  cases h
  rfl

theorem resolveChain_default {key : ChainKey} {runtime : ChainRuntime} (hkey : state.defaultChain = some key)
    (hruntime : state.chains.lookup key = some runtime) {request : Option String}
    (hrequest : request = none ∨ request = some "") : state.resolveChain decode request = .ok runtime := by
  unfold ProxyState.resolveChain
  rcases hrequest with rfl | rfl <;> simp only [hkey, hruntime]

theorem resolveChain_unknown {v : String} (hv : v ≠ "")
    (hnone : state.aliasMap.lookup (normalizeChainId decode v) = none) :
    state.resolveChain decode (some v) = .error (.unsupported v) := by
  unfold ProxyState.resolveChain
  split
  · rename_i h
    cases h
  · rename_i h
    exact absurd (Option.some.inj h) hv
  · rename_i value _ h
    obtain rfl := Option.some.inj h
    simp only [hnone]

/-- The routing table has no entry that does not come from an identifier of its chain. -/
theorem exists_identifier (hreg : MethodRegistry.new globs config = .ok registry)
    (h : ProxyState.new decode globs config = .ok state) {t : String} {key : ChainKey}
    (hkey : state.aliasMap.lookup t = some key) :
    ∃ chain, ∃ s ∈ chainIdentifiers key.text chain, config.chains.lookup key.text = some chain ∧
      normalizeChainId decode s = t := by
  by_cases hne : config.chains.entries = []
  · rw [(proxyState_legacy hne hreg h).2.1, AList.lookup_empty] at hkey
    cases hkey
  · rw [(proxyState_new hne hreg h).2] at hkey
    obtain ⟨⟨key', chain⟩, hpair, hmem⟩ := List.mem_flatMap.mp (HashMap.mem_of_lookup_collect hkey)
    obtain ⟨s, hs, heq⟩ := List.mem_map.mp hmem
    obtain ⟨hnorm, rfl⟩ := Prod.mk.inj heq
    exact ⟨chain, s, hs, HashMap.mem_pairs.mp hpair, hnorm⟩

/-- The default chain of the configuration is that of the state. -/
theorem resolveChain_configured (hchains : validateChains config = .ok ()) (hne : config.chains.entries ≠ [])
    (hreg : MethodRegistry.new globs config = .ok registry) (h : ProxyState.new decode globs config = .ok state) :
    ∃ key chain, config.defaultChain = some key ∧ config.chains.lookup key = some chain ∧
      ∀ request, request = none ∨ request = some "" → state.resolveChain decode request =
        .ok (configuredRuntime decode config state.providersById registry key chain) := by
  unfold validateChains at hchains
  simp only [List.isEmpty_iff, hne, ↓reduceIte] at hchains
  rcases hdefault : config.defaultChain with _ | key
  · rw [hdefault] at hchains
    cases hchains
  rw [hdefault] at hchains
  simp only [check_bind_eq_ok, reject_eq_ok, decide_eq_false_iff_not, not_not] at hchains
  obtain ⟨chain, hchain⟩ := Option.isSome_iff_exists.mp (AList.lookup_isSome.mpr hchains.2.1)
  have hruntime := lookup_chains hne hreg h hchain
  -- The search over the keys finds the one with this text.
  have hkey : state.defaultChain = some ⟨key⟩ := by
    rw [proxyState_defaultChain hne hreg h, hdefault, Option.bind_some]
    have hmem : ChainKey.mk key ∈ state.chains.keys := AList.mem_keys.mp (AList.lookup_isSome.mp (hruntime ▸ rfl))
    have hsome : (state.chains.keys.find? fun k => k.text == key).isSome :=
      List.find?_isSome.mpr ⟨⟨key⟩, hmem, beq_self_eq_true key⟩
    obtain ⟨found, hfound⟩ := Option.isSome_iff_exists.mp hsome
    have htext : found.text = key := by simpa using List.find?_some hfound
    rw [hfound, ← htext]
  exact ⟨key, chain, rfl, hchain, fun request hrequest => resolveChain_default hkey hruntime hrequest⟩

/-- A path value leads to a chain that has an identifier with its normal form, or there is no such chain. -/
theorem resolveChain_cases (hreg : MethodRegistry.new globs config = .ok registry)
    (h : ProxyState.new decode globs config = .ok state) {v : String} (hv : v ≠ "") :
    (∃ key chain, ∃ s ∈ chainIdentifiers key chain, config.chains.lookup key = some chain ∧
      normalizeChainId decode s = normalizeChainId decode v ∧ state.resolveChain decode (some v) =
        .ok (configuredRuntime decode config state.providersById registry key chain)) ∨
    (¬∃ key chain, ∃ s ∈ chainIdentifiers key chain, config.chains.lookup key = some chain ∧
      normalizeChainId decode s = normalizeChainId decode v) ∧
      state.resolveChain decode (some v) = .error (.unsupported v) := by
  have hne : ∀ {key : String} {chain : ChainConfig}, config.chains.lookup key = some chain →
      config.chains.entries ≠ [] := by
    intro key chain hchain
    exact List.ne_nil_of_mem (AList.mem_lookup_iff.mp hchain)
  cases hkey : state.aliasMap.lookup (normalizeChainId decode v) with
  | none =>
    refine .inr ⟨?_, resolveChain_unknown hv hkey⟩
    rintro ⟨key, chain, s, hs, hchain, hnorm⟩
    obtain ⟨_, _, _, htable, -⟩ := lookup_aliasMap (hne hchain) hreg h hchain hs
    rw [hnorm, hkey] at htable
    cases htable
  | some key =>
    obtain ⟨chain, s, hs, hchain, hnorm⟩ := exists_identifier hreg h hkey
    have hruntime := lookup_chains (hne hchain) hreg h hchain
    exact .inl ⟨key.text, chain, s, hs, hchain, hnorm, resolveChain_of_lookup hv hkey hruntime⟩

/-! ### Pools -/

theorem forall₂_filterMap {α β : Type} {f : α → Option β} {R : α → β → Prop} {l : List α}
    (h : ∀ a ∈ l, ∃ b, f a = some b ∧ R a b) : List.Forall₂ R l (l.filterMap f) := by
  induction l with
  | nil => exact .nil
  | cons a l ih =>
    obtain ⟨b, hb, hR⟩ := h a List.mem_cons_self
    rw [List.filterMap_cons_some hb]
    exact .cons hR (ih fun a' ha' => h a' (List.mem_cons_of_mem _ ha'))

/-- Handle `h` is that of the configured provider with this id. -/
def HandleOf (config : ProxyConfig) (id : ProviderId) (h : ProviderHandle) : Prop :=
  ∃ provider ∈ config.providers, provider.id = id ∧ h = provider.intoHandle

theorem HandleOf.id {id : ProviderId} {h : ProviderHandle} (hh : HandleOf config id h) : h.id = id := by
  obtain ⟨provider, -, rfl, rfl⟩ := hh
  rfl

theorem handles_ids {ids : List ProviderId} {handles : List ProviderHandle}
    (h : List.Forall₂ (HandleOf config) ids handles) : handles.map (·.id) = ids := by
  induction h with
  | nil => rfl
  | cons hhandle _ ih => rw [List.map_cons, hhandle.id, ih]

theorem lookup_handle (h : ProxyState.new decode globs config = .ok state) {id : ProviderId}
    (hid : id ∈ config.providers.map (·.id)) :
    ∃ handle, state.providersById.lookup id = some handle ∧ HandleOf config id handle := by
  rw [proxyState_providersById h]
  obtain ⟨provider, hprovider, rfl⟩ := List.mem_map.mp hid
  have hmem : provider.intoHandle ∈ config.providers.map ProviderConfig.intoHandle := List.mem_map_of_mem hprovider
  obtain ⟨handle, hhandle⟩ := HashMap.exists_lookup_collect hmem (·.id) id
  obtain ⟨handle', hmem', hid', rfl⟩ := HashMap.exists_of_lookup_collect hhandle
  obtain ⟨provider', hprovider', rfl⟩ := List.mem_map.mp hmem'
  exact ⟨_, hhandle, provider', hprovider', hid', rfl⟩

/-- The pool of a configured chain has the handles of its providers, in order. -/
theorem configuredRuntime_pool (hvalid : validate config = .ok ()) (h : ProxyState.new decode globs config = .ok state)
    {key : String} {chain : ChainConfig} (hchain : config.chains.lookup key = some chain) :
    List.Forall₂ (HandleOf config) chain.providers
      (configuredRuntime decode config state.providersById registry key chain).loadBalancer.pool.providers := by
  refine forall₂_filterMap fun id hid => lookup_handle h ?_
  exact List.mem_toFinset.mp ((validateChains_valid (validate_eq_ok hvalid).chains hchain).providers id hid)

end Table

/-- With an accepted configuration, in whatever order its chains are iterated: a request without a chain gets the
    configured default chain, or the only one there is without chains. Any other path value gets a chain that has
    a key or an alias with its normal form, and is unsupported exactly if there is none. The pool of a chain has
    the handles of its providers, in order. -/
theorem resolveChain_sound (decode : String → String) (globs : Globs) (config : ProxyConfig)
    (hvalid : validate config = .ok ()) (registry : MethodRegistry)
    (hreg : MethodRegistry.new globs config = .ok registry) (order : HashMap String ChainConfig)
    (horder : order.entries.Perm config.chains.entries) (state : ProxyState)
    (hstate : ProxyState.new decode globs { config with chains := order } = .ok state) :
    let runtime := configuredRuntime decode config state.providersById registry
    (config.chains.entries = [] → ∀ request, request = none ∨ request = some "" →
      state.resolveChain decode request = .ok (buildChainRuntime decode ⟨"default"⟩ [] config.strategy .balanced
        (config.providers.map ProviderConfig.intoHandle) config registry)) ∧
    (config.chains.entries ≠ [] → ∃ key chain, config.defaultChain = some key ∧
      config.chains.lookup key = some chain ∧ ∀ request, request = none ∨ request = some "" →
        state.resolveChain decode request = .ok (runtime key chain)) ∧
    (∀ v, v ≠ "" →
      (∃ key chain, ∃ s ∈ chainIdentifiers key chain, config.chains.lookup key = some chain ∧
        normalizeChainId decode s = normalizeChainId decode v ∧
        state.resolveChain decode (some v) = .ok (runtime key chain)) ∨
      state.resolveChain decode (some v) = .error (.unsupported v)) ∧
    (∀ v, v ≠ "" → (state.resolveChain decode (some v) = .error (.unsupported v) ↔
      ¬∃ key chain, ∃ s ∈ chainIdentifiers key chain, config.chains.lookup key = some chain ∧
        normalizeChainId decode s = normalizeChainId decode v)) ∧
    ∀ key chain, config.chains.lookup key = some chain →
      List.Forall₂ (HandleOf config) chain.providers (runtime key chain).loadBalancer.pool.providers := by
  intro runtime
  have hlookup : ∀ key, order.lookup key = config.chains.lookup key := fun _ => AList.perm_lookup horder
  have hvalid' := validate_perm horder hvalid
  have hreg' : MethodRegistry.new globs { config with chains := order } = .ok registry := hreg
  have hcases := fun v (hv : v ≠ "") => resolveChain_cases hreg' hstate hv
  simp only [hlookup] at hcases
  refine ⟨?_, ?_, ?_, ?_, ?_⟩
  · intro hempty request hrequest
    have hempty' := (HashMap.entries_eq_nil_of_perm horder).mpr hempty
    obtain ⟨hruntime, -, hkey⟩ := proxyState_legacy hempty' hreg' hstate
    exact resolveChain_default hkey hruntime hrequest
  · intro hne
    have hne' : order.entries ≠ [] := (HashMap.entries_eq_nil_of_perm horder).not.mpr hne
    obtain ⟨key, chain, hdefault, hchain, hresolve⟩ :=
      resolveChain_configured (validate_eq_ok hvalid').chains hne' hreg' hstate
    exact ⟨key, chain, hdefault, (hlookup key).symm.trans hchain, hresolve⟩
  · intro v hv
    rcases hcases v hv with hfound | ⟨-, herror⟩
    · exact .inl hfound
    · exact .inr herror
  · intro v hv
    rcases hcases v hv with ⟨key, chain, s, hs, hchain, hnorm, hok⟩ | ⟨hnone, herror⟩
    · rw [hok]
      constructor
      · intro h
        cases h
      · intro hnone
        exact absurd ⟨key, chain, s, hs, hchain, hnorm⟩ hnone
    · exact iff_of_true herror hnone
  · intro key chain hchain
    exact configuredRuntime_pool hvalid' hstate ((hlookup key).trans hchain)

/-- A path value with a typo is unsupported, and a request without one gets the default chain. -/
theorem resolveChain_sound_aliased :
    ∃ registry state, MethodRegistry.new literalGlobs aliasedConfig = .ok registry ∧
      ProxyState.new percentDecode literalGlobs aliasedConfig = .ok state ∧
      state.resolveChain percentDecode (some "mainet") = .error (.unsupported "mainet") ∧
      (∃ key chain, aliasedConfig.defaultChain = some key ∧ aliasedConfig.chains.lookup key = some chain ∧
        ∀ request, request = none ∨ request = some "" → state.resolveChain percentDecode request =
          .ok (configuredRuntime percentDecode aliasedConfig state.providersById registry key chain)) := by
  refine ⟨_, _, rfl, rfl, ?_⟩
  obtain ⟨-, hdefault, -, hunsupported, -⟩ := resolveChain_sound percentDecode literalGlobs aliasedConfig rfl _ rfl
    aliasedConfig.chains (List.Perm.refl _) _ rfl
  refine ⟨(hunsupported "mainet" (by decide)).mpr ?_, hdefault (List.cons_ne_nil _ _)⟩
  rintro ⟨key, chain, s, hs, hchain, hnorm⟩
  have hnone : ∀ entry ∈ aliasedConfig.chains.pairs, ∀ s ∈ chainIdentifiers entry.1 entry.2,
      normalizeChainId percentDecode s ≠ normalizeChainId percentDecode "mainet" := by
    decide
  exact hnone (key, chain) (HashMap.mem_pairs.mpr hchain) s hs hnorm

/-! ### Once in a round -/

/-- No provider is twice in the pool of the chain, so that as many round-robin selections as it has providers
    return each of them once, while all are eligible. -/
structure OncePerRound (chain : ChainRuntime) : Prop where
  distinct : (chain.loadBalancer.pool.providers.map (·.id)).Nodup
  round : chain.loadBalancer.strategy = .roundRobin → ∀ cursor (calls : List Selection),
    calls.length = chain.providers.card →
    (∀ c ∈ calls, chain.loadBalancer.eligibleFor c = chain.loadBalancer.pool.providers) →
    ∃ returned : List ProviderHandle, chain.loadBalancer.selections cursor calls = returned.map some ∧
      (returned.map (·.id)).Nodup ∧ (returned.map (·.id)).toFinset = chain.providers

theorem OncePerRound.of_distinct {chain : ChainRuntime} (hpool : chain.providers = chain.loadBalancer.pool.ids)
    (hids : (chain.loadBalancer.pool.providers.map (·.id)).Nodup) : OncePerRound chain where
  distinct := hids
  round := by
    intro hrr cursor calls hlen heligible
    let pool := chain.loadBalancer.pool.providers
    have hcard : chain.providers.card = pool.toFinset.card := by
      rw [hpool, ProviderPool.ids, List.toFinset_card_of_nodup hids, List.length_map,
        List.toFinset_card_of_nodup hids.of_map]
    have hne : ∀ c ∈ calls, chain.loadBalancer.eligibleFor c ≠ [] := by
      intro c hc hnil
      have hempty : pool = [] := (heligible c hc).symm.trans hnil
      rw [hcard, hempty, List.toFinset_nil, Finset.card_empty, List.length_eq_zero_iff] at hlen
      exact List.not_mem_nil (hlen ▸ hc)
    -- One round with the whole pool eligible is the pool in cyclic order.
    have hround : chain.loadBalancer.selections cursor calls = (pool.rotate cursor).map some := by
      rw [LoadBalancer.selections_eq hrr hne]
      refine (LoadBalancer.rounds_rotate hids (m := 1) (fun h hh => List.mem_toFinset.mp hh) ?_ ?_).trans ?_
      · rw [List.length_map, hlen, hcard, Nat.one_mul]
      · intro eligible hmem
        obtain ⟨c, hc, rfl⟩ := List.mem_map.mp hmem
        rw [heligible c hc]
      · have hall : (pool.rotate cursor).filter (fun candidate => decide (candidate ∈ pool.toFinset)) =
            pool.rotate cursor := by
          refine List.filter_eq_self.mpr fun h hh => decide_eq_true (List.mem_toFinset.mpr ?_)
          exact List.mem_rotate.mp hh
        rw [hall]
        simp
    have hperm : ((pool.rotate cursor).map (·.id)).Perm (pool.map (·.id)) := (List.rotate_perm pool cursor).map _
    refine ⟨pool.rotate cursor, hround, hperm.nodup_iff.mpr hids, ?_⟩
    rw [List.toFinset_eq_of_perm _ _ hperm, hpool, ProviderPool.ids]

/-- A chain of an accepted configuration has each provider once in its pool exactly if its own provider list does
    not repeat one. The list of all providers, which stands in for it without chains, never does. -/
theorem oncePerRound_iff (decode : String → String) (globs : Globs) (config : ProxyConfig)
    (hvalid : validate config = .ok ()) (state : ProxyState)
    (hstate : ProxyState.new decode globs config = .ok state) (key : ChainKey) (chain : ChainRuntime)
    (hchain : state.chains.lookup key = some chain) :
    OncePerRound chain ↔ ∀ entry, config.chains.lookup key.text = some entry → entry.providers.Nodup := by
  have hpool := providers_eq_pool hstate hchain
  obtain ⟨registry, aliases, tolerance, providers, -, rfl, hproviders⟩ := proxyState_chain hstate hchain
  have hids : ∀ entry, config.chains.lookup key.text = some entry → providers.map (·.id) = entry.providers := by
    intro entry hentry
    rcases hproviders with ⟨hempty, -, -⟩ | ⟨entry', hentry', -, rfl⟩
    · exact absurd (AList.mem_lookup_iff.mp hentry) (hempty ▸ List.not_mem_nil)
    · obtain rfl := Option.some.inj (hentry'.symm.trans hentry)
      have hlisted := (validateChains_valid (validate_eq_ok hvalid).chains hentry).providers
      have hhandles : List.Forall₂ (HandleOf config) entry'.providers
          (entry'.providers.filterMap fun id => state.providersById.lookup id) :=
        forall₂_filterMap fun id hid => lookup_handle hstate (List.mem_toFinset.mp (hlisted id hid))
      exact handles_ids hhandles
  constructor
  · intro honce entry hentry
    exact hids entry hentry ▸ honce.distinct
  · intro hnodup
    refine OncePerRound.of_distinct hpool ?_
    show (providers.map (·.id)).Nodup
    rcases hproviders with ⟨-, -, rfl⟩ | ⟨entry, hentry, -, -⟩
    · rw [List.map_map]
      exact (validateProviders_eq_ok.mp (validate_eq_ok hvalid).providers).2.1
    · rw [hids entry hentry]
      exact hnodup entry hentry

/-- One chain over two providers, with this list of its own. -/
def oneChainConfig (ids : List ProviderId) : ProxyConfig :=
  { smallConfig with
    strategy := .roundRobin
    providers := [{ id := ⟨"a"⟩, url := "https://a.example" }, { id := ⟨"b"⟩, url := "https://b.example" }]
    chains := HashMap.collect [("eth", { providers := ids })]
    defaultChain := some "eth" }

/-- A selection with new health states and nothing excluded. -/
def plainSelection : Selection :=
  ⟨.fixed (HealthService.new twoProviders .balanced).state, firstIndex, ∅, none⟩

/-- A chain that lists a provider twice is accepted. From the last place of the list, a round of two selections
    returns that provider twice. -/
theorem not_always_oncePerRound :
    ¬∀ decode globs config state key chain, validate config = .ok () →
      ProxyState.new decode globs config = .ok state → state.chains.lookup key = some chain → OncePerRound chain := by
  intro h
  have honce := h id literalGlobs (oneChainConfig [⟨"a"⟩, ⟨"b"⟩, ⟨"a"⟩]) _ ⟨"eth"⟩ _ rfl rfl rfl
  obtain ⟨returned, hreturned, hnodup, -⟩ := honce.round rfl 2 (List.replicate 2 plainSelection) (by decide +kernel)
    (by decide +kernel)
  have htwice : returned.map some = [some firstProvider, some firstProvider] :=
    hreturned.symm.trans (by decide +kernel)
  obtain rfl : returned = [firstProvider, firstProvider] :=
    List.map_injective_iff.mpr (Option.some_injective _) htwice
  exact absurd hnodup (by decide)

theorem oncePerRound_two :
    ∃ state chain, ProxyState.new id literalGlobs (oneChainConfig [⟨"b"⟩, ⟨"a"⟩]) = .ok state ∧
      state.chains.lookup ⟨"eth"⟩ = some chain ∧ OncePerRound chain := by
  refine ⟨_, _, rfl, rfl, ?_⟩
  refine (oncePerRound_iff id literalGlobs (oneChainConfig [⟨"b"⟩, ⟨"a"⟩]) rfl _ rfl ⟨"eth"⟩ _ rfl).mpr ?_
  intro entry hentry
  cases hentry
  decide

end Rpceth
