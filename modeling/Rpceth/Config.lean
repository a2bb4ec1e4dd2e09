import Mathlib.Data.Finset.Insert
import Rpceth.Health

/-! `proxy-core/src/config.rs`: the configuration and its validation. Reading the file and deserializing
    YAML are left out. The three records of per-method settings have the same fields, which
    `MethodSettings` holds. -/

namespace Rpceth
open Lib

inductive BalancerStrategy where
  | roundRobin
  | weightedRandom
  deriving DecidableEq, Repr

structure BackoffConfig where
  minMs : Option UInt64 := none
  maxMs : Option UInt64 := none
  jitter : Option F64 := none
  deriving DecidableEq, Repr

structure MethodSettings where
  tolerance : Option ToleranceLevel := none
  timeoutMs : Option UInt64 := none
  weightMultiplier : Option F64 := none
  maxRetries : Option UInt8 := none
  backoff : Option BackoffConfig := none
  providerWeights : HashMap ProviderId UInt16 := ∅
  deriving DecidableEq

abbrev MethodDefaults := MethodSettings

abbrev MethodGroupConfig := MethodSettings

structure MethodOverrideConfig extends MethodSettings where
  pattern : String := ""
  group : Option String := none
  deriving DecidableEq

structure MethodConfig where
  default : MethodDefaults := {}
  groups : HashMap String MethodGroupConfig := ∅
  overrides : List MethodOverrideConfig := []
  deriving DecidableEq

structure ChainConfig where
  providers : List ProviderId := []
  aliases : List String := []
  tolerance : Option ToleranceLevel := none
  deriving DecidableEq, Repr

structure AuthConfig where
  apiKey : String
  deriving DecidableEq, Repr

structure ProxyConfig where
  strategy : BalancerStrategy := .weightedRandom
  defaultTimeoutMs : UInt64 := 5000
  maxRetries : UInt8 := 3
  defaultTolerance : ToleranceLevel := .balanced
  methods : MethodConfig := {}
  circuitBreaker : CircuitBreakerConfig := {}
  auth : AuthConfig
  providers : List ProviderConfig
  chains : HashMap String ChainConfig := ∅
  defaultChain : Option String := none
  deriving DecidableEq

/-- `if let Some(value) = value { if value == 0 { return Err(..) } }`. -/
def rejectZero {α : Type} [BEq α] [OfNat α 0] (value : Option α) (message : String) : Checked :=
  reject (value == some 0) message

def validateCircuitBreaker (config : CircuitBreakerConfig) : Checked := do
  rejectZero config.failureThreshold "circuit_breaker failure_threshold must be greater than zero"
  rejectZero config.resetTimeoutMs "circuit_breaker reset_timeout_ms must be greater than zero"
  rejectZero config.halfOpenProbe "circuit_breaker half_open_probe must be greater than zero"

/-- `max_ms` and `min_ms` are compared only where one block sets both. -/
def validateBackoff (label : String) : Option BackoffConfig → Checked
  | none => .ok ()
  | some cfg => do
    rejectZero cfg.minMs s!"{label} min_ms must be greater than zero"
    rejectZero cfg.maxMs s!"{label} max_ms must be greater than zero"
    reject (match cfg.minMs, cfg.maxMs with
      | some min, some max => decide (max < min)
      | _, _ => false) s!"{label} max_ms must be greater than or equal to min_ms"
    reject (cfg.jitter.any fun jitter => !F64.contains 0 1 jitter) s!"{label} jitter must be between 0.0 and 1.0"

def validateTimeout (label : String) (value : Option UInt64) : Checked :=
  rejectZero value s!"{label} must be greater than zero"

def validateMaxRetries (label : String) (value : Option UInt8) : Checked :=
  rejectZero value s!"{label} must be greater than zero"

def validateMultiplier (label : String) (value : Option F64) : Checked :=
  reject (value.any fun multiplier => !F64.contains 0 10 multiplier) s!"{label} must be between 0 and 10"

def validateGroup (group : String) (cfg : MethodGroupConfig) : Checked := do
  validateTimeout s!"group `{group}` timeout" cfg.timeoutMs
  validateMaxRetries s!"group `{group}` max_retries" cfg.maxRetries
  validateMultiplier s!"group `{group}` weight multiplier" cfg.weightMultiplier
  validateBackoff s!"group `{group}` backoff" cfg.backoff

def validateOverride (groups : HashMap String MethodGroupConfig) (cfg : MethodOverrideConfig) : Checked := do
  reject (trim cfg.pattern == "") "method override pattern must not be empty"
  validateTimeout s!"override `{cfg.pattern}` timeout" cfg.timeoutMs
  validateMaxRetries s!"override `{cfg.pattern}` max_retries" cfg.maxRetries
  validateMultiplier s!"override `{cfg.pattern}` weight multiplier" cfg.weightMultiplier
  validateBackoff s!"override `{cfg.pattern}` backoff" cfg.backoff
  match cfg.group with
  | none => .ok ()
  | some group =>
    reject (decide (group ∉ groups)) s!"override `{cfg.pattern}` references unknown group `{group}`"

def validateMethods (methods : MethodConfig) : Checked := do
  validateBackoff "default backoff" methods.default.backoff
  validateTimeout "default method timeout" methods.default.timeoutMs
  validateMaxRetries "default method max_retries" methods.default.maxRetries
  validateMultiplier "default method weight multiplier" methods.default.weightMultiplier
  forM methods.groups.pairs fun (group, cfg) => validateGroup group cfg
  forM methods.overrides fun cfg => validateOverride methods.groups cfg

/-- The loop over the providers, with the ids seen so far. -/
def validateProviders (ids : Finset ProviderId) : List ProviderConfig → Checked
  | [] => .ok ()
  | provider :: rest => do
    provider.validate
    reject (decide (provider.id ∈ ids)) s!"duplicate provider id `{provider.id.text}`"
    validateProviders (insert provider.id ids) rest

def normalizeChainAlias (value : String) : String := toAsciiLowercase (trim value)

/-- The loop over the aliases of a chain, with the aliases seen in this chain and the identifiers used by
    all chains so far; it returns the identifiers used. -/
def validateAliases (chainKey : String) (seen used : Finset String) : List String →
    Except ConfigError (Finset String)
  | [] => .ok used
  | name :: rest => do
    let trimmed := trim name
    reject (trimmed == "") s!"chain `{chainKey}` has an empty alias entry"
    let normalized := normalizeChainAlias trimmed
    reject (decide (normalized ∈ seen)) s!"chain `{chainKey}` contains duplicate alias `{trimmed}`"
    reject (decide (normalized ∈ used)) s!"alias `{trimmed}` is already in use by another chain"
    validateAliases chainKey (insert normalized seen) (insert normalized used) rest

def validateChain (providerIds : Finset ProviderId) (used : Finset String) (chainKey : String)
    (chain : ChainConfig) : Except ConfigError (Finset String) := do
  let canonical := trim chainKey
  reject (canonical == "") "chain keys must not be empty or whitespace"
  reject chain.providers.isEmpty s!"chain `{chainKey}` must reference at least one provider"
  forM chain.providers fun id =>
    reject (decide (id ∉ providerIds)) s!"chain `{chainKey}` references unknown provider `{id.text}`"
  let canonicalNorm := normalizeChainAlias canonical
  reject (decide (canonicalNorm ∈ used)) s!"chain identifier `{chainKey}` conflicts with another chain alias"
  validateAliases chainKey ∅ (insert canonicalNorm used) chain.aliases

/-- The loop over the chains, with the identifiers used so far. -/
def validateChainList (providerIds : Finset ProviderId) (used : Finset String) :
    List (String × ChainConfig) → Checked
  | [] => .ok ()
  | (chainKey, chain) :: rest => do
    let used ← validateChain providerIds used chainKey chain
    validateChainList providerIds used rest

def validateChains (config : ProxyConfig) : Checked :=
  if config.chains.entries.isEmpty then
    match config.defaultChain with
    | none => .ok ()
    | some defaultChain =>
      reject (trim defaultChain != "") "default_chain must not be specified when chains are empty"
  else
    match config.defaultChain with
    | none => .error (.validation "default_chain must be specified when chains are configured")
    | some defaultChain => do
      reject (trim defaultChain == "") "default_chain must not be empty"
      reject (decide (defaultChain ∉ config.chains))
        s!"default_chain `{defaultChain}` does not exist in chains map"
      validateChainList (config.providers.map (·.id)).toFinset ∅ config.chains.pairs

def validate (config : ProxyConfig) : Checked := do
  reject (config.defaultTimeoutMs == 0) "default_timeout_ms must be greater than zero"
  reject (config.maxRetries == 0) "max_retries must be greater than zero"
  reject (trim config.auth.apiKey == "") "auth.api_key must be provided and not be empty"
  validateCircuitBreaker config.circuitBreaker
  reject config.providers.isEmpty "at least one provider must be configured"
  validateProviders ∅ config.providers
  validateMethods config.methods
  validateChains config

end Rpceth
