import Rpceth.Circuit
import Rpceth.LoadBalancer

/-! `proxy-server/src/lib.rs`: the chain table. `ProxyState::new` builds a runtime for every chain and a map
    from identifiers to chains; `resolve_chain` looks a request's chain up in it.

    `decode` stands for `percent_decode_str(value).decode_utf8_lossy()` of the `percent-encoding` crate. Of the
    HTTP clients it matters only whether they can be built. -/

namespace Rpceth
open Lib

structure ChainKey where
  text : String
  deriving DecidableEq, Repr

structure ChainRuntime where
  id : ChainKey
  aliases : Finset String
  tolerance : ToleranceLevel
  loadBalancer : LoadBalancer
  healthService : Option HealthService
  circuitBreaker : CircuitBreaker
  methodRegistry : MethodRegistry
  providers : Finset ProviderId

structure ProxyState where
  config : ProxyConfig
  providersById : HashMap ProviderId ProviderHandle
  chains : HashMap ChainKey ChainRuntime
  aliasMap : HashMap String ChainKey
  defaultChain : Option ChainKey

def ProxyState.apiKey (state : ProxyState) : String := state.config.auth.apiKey

section
variable (decode : String → String)

def normalizeChainId (value : String) : String := toAsciiLowercase (trim (decode value))

def registerAlias (map : HashMap String ChainKey) (key : ChainKey) (aliases : List String) :
    HashMap String ChainKey :=
  HashMap.insertAll map (aliases.map fun name => (normalizeChainId decode name, key))

def buildChainRuntime (key : ChainKey) (aliases : List String) (strategy : BalancerStrategy)
    (tolerance : ToleranceLevel) (providers : List ProviderHandle) (config : ProxyConfig)
    (methodRegistry : MethodRegistry) : ChainRuntime :=
  let healthService := if providers.isEmpty then none else some (HealthService.new providers tolerance)
  { id := key
    aliases := (aliases.map (normalizeChainId decode)).toFinset
    tolerance
    loadBalancer := LoadBalancer.new strategy providers healthService
    healthService
    circuitBreaker := CircuitBreaker.new providers config.circuitBreaker
    methodRegistry
    providers := (providers.map (·.id)).toFinset }

/-- The runtime that `ProxyState::new` builds for an entry of the chains map. -/
def configuredRuntime (config : ProxyConfig) (providersById : HashMap ProviderId ProviderHandle)
    (registry : MethodRegistry) (chainId : String) (chain : ChainConfig) : ChainRuntime :=
  let providerSubset := chain.providers.filterMap fun id => providersById.lookup id
  buildChainRuntime decode ⟨chainId⟩ chain.aliases config.strategy
    (chain.tolerance.getD config.defaultTolerance) providerSubset config registry

/-- The loop over the chains map, which fills `chains` and `alias_map`. -/
def buildChains (config : ProxyConfig) (providersById : HashMap ProviderId ProviderHandle)
    (registry : MethodRegistry) (chains : HashMap ChainKey ChainRuntime) (aliasMap : HashMap String ChainKey) :
    List (String × ChainConfig) → HashMap ChainKey ChainRuntime × HashMap String ChainKey
  | [] => (chains, aliasMap)
  | (chainId, chain) :: rest =>
    let key : ChainKey := ⟨chainId⟩
    let runtime := configuredRuntime decode config providersById registry chainId chain
    let aliasMap := registerAlias decode aliasMap key [chainId]
    let aliasMap := registerAlias decode aliasMap key chain.aliases
    buildChains config providersById registry (chains.insert key runtime) aliasMap rest

/-- A registry that does not build makes the constructor panic. -/
def ProxyState.new (globs : Globs) (config : ProxyConfig) : Except MethodRegistryError ProxyState :=
  let providerHandles := config.providers.map ProviderConfig.intoHandle
  let providersById := HashMap.collect (providerHandles.map fun handle => (handle.id, handle))
  match MethodRegistry.new globs config with
  | .error e => .error e
  | .ok registry =>
    if config.chains.entries.isEmpty then
      let key : ChainKey := ⟨"default"⟩
      let runtime := buildChainRuntime decode key [] config.strategy .balanced providerHandles config registry
      let chains : HashMap ChainKey ChainRuntime := AList.insert key runtime ∅
      .ok
        { config := { config with defaultChain := some key.text }
          providersById
          chains
          aliasMap := ∅
          defaultChain := chains.keys.find? fun k => k.text == key.text }
    else
      let (chains, aliasMap) := buildChains decode config providersById registry ∅ ∅ config.chains.pairs
      .ok
        { config
          providersById
          chains
          aliasMap
          defaultChain := config.defaultChain.bind fun id => chains.keys.find? fun k => k.text == id }

/-- Which `reqwest` clients can be built: that of the server, and that of the probes of a chain. -/
structure HttpClients where
  server : Bool
  probe : ChainKey → Bool

/-- The calls of `expect` on the way to a state. -/
inductive StartPanic where
  | client
  | registry (error : MethodRegistryError)
  | probeClient
  deriving DecidableEq

/-- `build_chain_runtime` makes a probe for a chain with providers, and there only. -/
def HttpClients.failFor (clients : HttpClients) : ChainKey × ChainRuntime → Bool
  | (key, chain) => chain.healthService.isSome && !clients.probe key

/-- `ProxyState::new` with all its panics. -/
def ProxyState.start (globs : Globs) (clients : HttpClients) (config : ProxyConfig) : Except StartPanic ProxyState :=
  if !clients.server then .error .client
  else match ProxyState.new decode globs config with
    | .error e => .error (.registry e)
    | .ok state => if state.chains.pairs.any clients.failFor then .error .probeClient else .ok state

inductive ChainError where
  | unsupported (value : String)
  deriving DecidableEq, Repr

def ProxyState.resolveChain (state : ProxyState) (chainId : Option String) : Except ChainError ChainRuntime :=
  let key : Except ChainError ChainKey := match chainId with
    | none | some "" =>
      match state.defaultChain with
      | some key => .ok key
      | none => .error (.unsupported "default")
    | some value =>
      match state.aliasMap.lookup (normalizeChainId decode value) with
      | some key => .ok key
      | none => .error (.unsupported value)
  match key with
  | .error e => .error e
  | .ok key =>
    match state.chains.lookup key with
    | some runtime => .ok runtime
    | none => .error (.unsupported key.text)

end
end Rpceth
