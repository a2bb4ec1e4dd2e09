import Rpceth.Server.State
import Rpceth.Theorems.Validation

/-! Where the identifiers of a chain lead. The table is filled and read under one normal form, with percent
    decoding, and validation compares identifiers under another one, without it. -/

namespace Rpceth
open Lib

/-- The key of a chain and its aliases. -/
def chainIdentifiers (chainKey : String) (chain : ChainConfig) : List String := chainKey :: chain.aliases

/-- No two chains have identifiers with one normal form in the routing table. -/
def Unambiguous (decode : String → String) (chains : HashMap String ChainConfig) : Prop :=
  ∀ key chain key' chain', chains.lookup key = some chain → chains.lookup key' = some chain' → key ≠ key' →
    ∀ s ∈ chainIdentifiers key chain, ∀ s' ∈ chainIdentifiers key' chain',
      normalizeChainId decode s ≠ normalizeChainId decode s'

section Table
variable {decode : String → String} {globs : Globs} {config : ProxyConfig} {registry : MethodRegistry}
  {state : ProxyState}

/-- The entries of the routing table for one chain, in the order of their insertion. -/
def aliasEntries (decode : String → String) (entry : String × ChainConfig) : List (String × ChainKey) :=
  (chainIdentifiers entry.1 entry.2).map fun name => (normalizeChainId decode name, ⟨entry.1⟩)

theorem buildChains_eq (byId : HashMap ProviderId ProviderHandle) (chains : HashMap ChainKey ChainRuntime)
    (aliasMap : HashMap String ChainKey) (l : List (String × ChainConfig)) :
    buildChains decode config byId registry chains aliasMap l =
      (HashMap.insertAll chains
        (l.map fun entry => (⟨entry.1⟩, configuredRuntime decode config byId registry entry.1 entry.2)),
      HashMap.insertAll aliasMap (l.flatMap (aliasEntries decode))) := by
  induction l generalizing chains aliasMap with
  | nil => rfl
  | cons entry rest ih =>
    obtain ⟨key, chain⟩ := entry
    rw [buildChains, ih, List.flatMap_cons, HashMap.insertAll_append]
    rfl

/-- What a state built from a configuration with chains holds. -/
theorem proxyState_new (hne : config.chains.entries ≠ []) (hreg : MethodRegistry.new globs config = .ok registry)
    (h : ProxyState.new decode globs config = .ok state) :
    state.chains = HashMap.collect (config.chains.pairs.map fun entry =>
      (⟨entry.1⟩, configuredRuntime decode config state.providersById registry entry.1 entry.2)) ∧
    state.aliasMap = HashMap.collect (config.chains.pairs.flatMap (aliasEntries decode)) := by
  unfold ProxyState.new at h
  simp only [hreg, List.isEmpty_iff, hne, ↓reduceIte, buildChains_eq] at h
  cases h
  exact ⟨rfl, rfl⟩

theorem proxyState_providersById (h : ProxyState.new decode globs config = .ok state) :
    state.providersById =
      HashMap.collect ((config.providers.map ProviderConfig.intoHandle).map fun handle => (handle.id, handle)) := by
  unfold ProxyState.new at h
  simp only at h
  split at h
  · cases h
  · split at h <;> cases h <;> rfl

/-- Every chain of a state is built from its entry with providers of the table, or without entries it is the only
    chain, with all providers. -/
theorem proxyState_chain (h : ProxyState.new decode globs config = .ok state) {key : ChainKey} {chain : ChainRuntime}
    (hchain : state.chains.lookup key = some chain) :
    ∃ registry aliases tolerance providers, MethodRegistry.new globs config = .ok registry ∧
      chain = buildChainRuntime decode key aliases config.strategy tolerance providers config registry ∧
      (config.chains.entries = [] ∧ tolerance = .balanced ∧
          providers = config.providers.map ProviderConfig.intoHandle ∨
        ∃ entry, config.chains.lookup key.text = some entry ∧
          tolerance = entry.tolerance.getD config.defaultTolerance ∧
          providers = entry.providers.filterMap fun id => state.providersById.lookup id) := by
  cases hreg : MethodRegistry.new globs config with
  | error e =>
    unfold ProxyState.new at h
    simp only [hreg] at h
    cases h
  | ok registry =>
    by_cases hne : config.chains.entries = []
    · unfold ProxyState.new at h
      simp only [hreg, hne, List.isEmpty_nil, ↓reduceIte] at h
      cases h
      by_cases hkey : key = ⟨"default"⟩
      · subst hkey
        rw [AList.lookup_insert] at hchain
        cases hchain
        exact ⟨registry, [], .balanced, _, rfl, rfl, .inl ⟨hne, rfl, rfl⟩⟩
      · rw [AList.lookup_insert_ne hkey, AList.lookup_empty] at hchain
        cases hchain
    · rw [(proxyState_new hne hreg h).1] at hchain
      obtain ⟨entry, hentry, rfl, rfl⟩ := HashMap.exists_of_lookup_collect hchain
      exact ⟨registry, _, _, _, rfl, rfl, .inr ⟨entry.2, HashMap.mem_pairs.mp hentry, rfl, rfl⟩⟩

theorem lookup_chains (hne : config.chains.entries ≠ []) (hreg : MethodRegistry.new globs config = .ok registry)
    (h : ProxyState.new decode globs config = .ok state) {key : String} {chain : ChainConfig}
    (hchain : config.chains.lookup key = some chain) :
    state.chains.lookup ⟨key⟩ = some (configuredRuntime decode config state.providersById registry key chain) := by
  rw [(proxyState_new hne hreg h).1]
  refine HashMap.lookup_collect_of_nodup ?_ (List.mem_map.mpr ⟨(key, chain), HashMap.mem_pairs.mpr hchain, rfl⟩)
  have hkeys := List.Nodup.map (f := ChainKey.mk) (fun a b hab => congrArg ChainKey.text hab)
    (HashMap.pairs_keys_nodup config.chains)
  rw [List.map_map] at hkeys ⊢
  exact hkeys

/-- The table leads from a normal form to a chain that has an identifier with it, if there is one. -/
theorem lookup_aliasMap (hne : config.chains.entries ≠ []) (hreg : MethodRegistry.new globs config = .ok registry)
    (h : ProxyState.new decode globs config = .ok state) {key : String} {chain : ChainConfig} {s : String}
    (hchain : config.chains.lookup key = some chain) (hs : s ∈ chainIdentifiers key chain) :
    ∃ key' chain' s', state.aliasMap.lookup (normalizeChainId decode s) = some ⟨key'⟩ ∧
      config.chains.lookup key' = some chain' ∧ s' ∈ chainIdentifiers key' chain' ∧
      normalizeChainId decode s' = normalizeChainId decode s := by
  have hentry : (normalizeChainId decode s, ChainKey.mk key) ∈ config.chains.pairs.flatMap (aliasEntries decode) :=
    List.mem_flatMap.mpr ⟨(key, chain), HashMap.mem_pairs.mpr hchain, List.mem_map.mpr ⟨s, hs, rfl⟩⟩
  have hsome := HashMap.lookup_collect_isSome.mpr (List.mem_map.mpr ⟨_, hentry, rfl⟩)
  rw [(proxyState_new hne hreg h).2]
  obtain ⟨target, htarget⟩ := Option.isSome_iff_exists.mp hsome
  obtain ⟨⟨key', chain'⟩, hpair, hmem⟩ := List.mem_flatMap.mp (HashMap.mem_of_lookup_collect htarget)
  obtain ⟨s', hs', heq⟩ := List.mem_map.mp hmem
  obtain ⟨hnorm, rfl⟩ := Prod.mk.inj heq
  exact ⟨key', chain', s', htarget, HashMap.mem_pairs.mp hpair, hs', hnorm⟩

theorem resolveChain_of_lookup {s : String} {key : ChainKey} {runtime : ChainRuntime} (hs : s ≠ "")
    (hkey : state.aliasMap.lookup (normalizeChainId decode s) = some key)
    (hruntime : state.chains.lookup key = some runtime) : state.resolveChain decode (some s) = .ok runtime := by
  unfold ProxyState.resolveChain
  split
  · rename_i hnone
    cases hnone
  · rename_i hempty
    exact absurd (Option.some.inj hempty) hs
  · rename_i value _ hvalue
    obtain rfl := Option.some.inj hvalue
    simp only [hkey, hruntime]

end Table

section Routing
variable {decode : String → String} {config : ProxyConfig}

theorem identifier_ne_empty (hvalid : validate config = .ok ()) {key : String} {chain : ChainConfig} {s : String}
    (hchain : config.chains.lookup key = some chain) (hs : s ∈ chainIdentifiers key chain) : s ≠ "" := by
  have h := validateChains_valid (validate_eq_ok hvalid).chains hchain
  rcases List.mem_cons.mp hs with rfl | hs
  · exact ne_empty_of_trim h.key
  · exact ne_empty_of_trim (h.aliases s hs)

/-- Every identifier leads to its own chain, in whatever order the chains map is iterated, exactly if no
    identifiers of two chains have one normal form in the routing table. -/
theorem routes_iff_unambiguous (decode : String → String) (globs : Globs) (config : ProxyConfig)
    (hvalid : validate config = .ok ()) (hne : config.chains.entries ≠ []) (registry : MethodRegistry)
    (hreg : MethodRegistry.new globs config = .ok registry) (order : HashMap String ChainConfig)
    (horder : order.entries.Perm config.chains.entries) (state : ProxyState)
    (hstate : ProxyState.new decode globs { config with chains := order } = .ok state) :
    (∀ key chain, config.chains.lookup key = some chain → ∀ s ∈ chainIdentifiers key chain,
      state.resolveChain decode (some s) =
        .ok (configuredRuntime decode config state.providersById registry key chain)) ↔
    Unambiguous decode config.chains := by
  have hlookup : ∀ key, order.lookup key = config.chains.lookup key := fun _ => AList.perm_lookup horder
  have hne' : order.entries ≠ [] := (HashMap.entries_eq_nil_of_perm horder).not.mpr hne
  have hreg' : MethodRegistry.new globs { config with chains := order } = .ok registry := hreg
  -- An identifier resolves to the chain that the table has for its normal form.
  have hresolve : ∀ key chain s, config.chains.lookup key = some chain → s ∈ chainIdentifiers key chain →
      ∃ key' chain' s', config.chains.lookup key' = some chain' ∧ s' ∈ chainIdentifiers key' chain' ∧
        normalizeChainId decode s' = normalizeChainId decode s ∧
        state.aliasMap.lookup (normalizeChainId decode s) = some ⟨key'⟩ ∧
        state.resolveChain decode (some s) =
          .ok (configuredRuntime decode config state.providersById registry key' chain') := by
    intro key chain s hchain hs
    have hchain' := (hlookup key).trans hchain
    obtain ⟨key', chain', s', htable, hkey', hs', hnorm⟩ := lookup_aliasMap hne' hreg' hstate hchain' hs
    have hruntime := lookup_chains hne' hreg' hstate hkey'
    refine ⟨key', chain', s', (hlookup key').symm.trans hkey', hs', hnorm, htable, ?_⟩
    exact resolveChain_of_lookup (identifier_ne_empty hvalid hchain hs) htable hruntime
  constructor
  · intro h key chain key' chain' hchain hchain' hdiff s hs s' hs' hnorm
    obtain ⟨target, _, _, -, -, -, htable, hres⟩ := hresolve key chain s hchain hs
    obtain ⟨target', _, _, -, -, -, htable', hres'⟩ := hresolve key' chain' s' hchain' hs'
    -- Both identifiers have one entry in the table, so both chains are the chain of this entry.
    rw [hnorm, htable'] at htable
    cases htable
    have hown := congrArg ChainRuntime.id (Except.ok.inj ((h key chain hchain s hs).symm.trans hres))
    have hown' := congrArg ChainRuntime.id (Except.ok.inj ((h key' chain' hchain' s' hs').symm.trans hres'))
    exact hdiff (congrArg ChainKey.text (hown.trans hown'.symm))
  · intro h key chain hchain s hs
    obtain ⟨key', chain', s', hchain', hs', hnorm, -, hres⟩ := hresolve key chain s hchain hs
    by_cases hkey : key = key'
    · subst hkey
      rw [hchain] at hchain'
      cases hchain'
      exact hres
    · exact absurd hnorm.symm (h key chain key' chain' hchain hchain' hkey s hs s' hs')

end Routing

/-! ### Percent decoding -/

def percentDecodeChars : List Char → List Char
  | '%' :: a :: b :: rest =>
    match hexDigit a, hexDigit b with
    | some high, some low => Char.ofNat (16 * high + low) :: percentDecodeChars rest
    | _, _ => '%' :: percentDecodeChars (a :: b :: rest)
  | c :: rest => c :: percentDecodeChars rest
  | [] => []

/-- `percent_decode_str` where all encoded bytes are ASCII. -/
def percentDecode (s : String) : String := String.ofList (percentDecodeChars s.toList)

example : percentDecode "100%25%2" = "100%%2" := by decide

/-- Two chains that are told apart by validation only. -/
def encodedConfig : ProxyConfig :=
  { smallConfig with
    chains := HashMap.collect [("%61", { providers := [⟨"a"⟩] }), ("a", { providers := [⟨"a"⟩] })]
    defaultChain := some "a" }

/-- The key `a` of one chain leads to the other one, whose key is `%61`. -/
theorem not_always_own_chain :
    ¬∀ globs config registry state key chain s, validate config = .ok () →
      MethodRegistry.new globs config = .ok registry → ProxyState.new percentDecode globs config = .ok state →
      config.chains.lookup key = some chain → s ∈ chainIdentifiers key chain →
      state.resolveChain percentDecode (some s) =
        .ok (configuredRuntime percentDecode config state.providersById registry key chain) := by
  intro h
  have hown := h literalGlobs encodedConfig _ _ "a" { providers := [⟨"a"⟩] } "a" rfl rfl rfl (by decide)
    List.mem_cons_self
  have hid := congrArg (fun runtime => runtime.toOption.map (·.id)) hown
  exact absurd hid (by decide)

/-- Two chains with an alias each. -/
def aliasedConfig : ProxyConfig :=
  { smallConfig with
    chains := HashMap.collect [("eth", { providers := [⟨"a"⟩], aliases := ["mainnet"] }),
      ("polygon", { providers := [⟨"a"⟩], aliases := ["137"] })]
    defaultChain := some "eth" }

theorem unambiguous_aliasedConfig : Unambiguous percentDecode aliasedConfig.chains := by
  have hpairs : aliasedConfig.chains.pairs = [("polygon", { providers := [⟨"a"⟩], aliases := ["137"] }),
      ("eth", { providers := [⟨"a"⟩], aliases := ["mainnet"] })] := rfl
  intro key chain key' chain' hchain hchain' hdiff
  have hmem := HashMap.mem_pairs.mpr hchain
  have hmem' := HashMap.mem_pairs.mpr hchain'
  rw [hpairs, List.mem_cons, List.mem_singleton] at hmem hmem'
  rcases hmem with heq | heq <;> rcases hmem' with heq' | heq' <;> cases heq <;> cases heq'
  · exact absurd rfl hdiff
  · decide
  · decide
  · exact absurd rfl hdiff

theorem routes_aliasedConfig :
    ∃ registry state, MethodRegistry.new literalGlobs aliasedConfig = .ok registry ∧
      ProxyState.new percentDecode literalGlobs aliasedConfig = .ok state ∧
      state.resolveChain percentDecode (some "mainnet") =
        .ok (configuredRuntime percentDecode aliasedConfig state.providersById registry "eth"
          { providers := [⟨"a"⟩], aliases := ["mainnet"] }) := by
  refine ⟨_, _, rfl, rfl, ?_⟩
  exact (routes_iff_unambiguous percentDecode literalGlobs aliasedConfig rfl (List.cons_ne_nil _ _) _ rfl
    aliasedConfig.chains (List.Perm.refl _) _ rfl).mpr unambiguous_aliasedConfig "eth" _ (by decide) "mainnet"
    (List.mem_cons_of_mem _ List.mem_cons_self)

end Rpceth
