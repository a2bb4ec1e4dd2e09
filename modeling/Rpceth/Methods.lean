import Rpceth.Config

/-! `proxy-core/src/methods.rs`: the policy of a method, resolved from defaults, groups and overrides. The
    `globset` crate is a parameter. -/

namespace Rpceth
open Lib

/-- `globset`: the patterns and pattern sets it refuses, and which method names a pattern matches. -/
structure Globs where
  parseError : String → Option String
  buildError : List String → Option String
  isMatch : String → String → Bool

/-- `GlobSet::matches`: the indices of the patterns that match, in increasing order. -/
def Globs.matches (g : Globs) (patterns : List String) (method : String) : List Nat :=
  (List.range patterns.length).filter fun i => patterns[i]?.any (g.isMatch · method)

structure ResolvedBackoff where
  min : Duration
  max : Duration
  jitter : F64
  deriving DecidableEq, Repr

structure MethodPolicy where
  tolerance : ToleranceLevel
  timeout : Duration
  weightMultiplier : F64
  maxRetries : Nat
  providerWeights : HashMap ProviderId F64
  backoff : Option ResolvedBackoff
  deriving DecidableEq

def MethodPolicy.providerWeight (policy : MethodPolicy) (provider : ProviderId) : Option F64 :=
  policy.providerWeights.lookup provider

inductive MethodRegistryError where
  | invalidGlob (pattern source : String)
  deriving DecidableEq, Repr

structure OverrideEntry where
  pattern : String
  policy : MethodPolicy

structure OverrideSet where
  globset : List String
  entries : List OverrideEntry

structure ResolvedOverride where
  pattern : String
  policy : MethodPolicy

/-- The fields are those of a policy. -/
abbrev ResolvedDefaults := MethodPolicy

structure MethodRegistry where
  defaultTimeout : Duration
  defaultTolerance : ToleranceLevel
  defaultMaxRetries : Nat
  defaultWeightMultiplier : F64
  defaultProviderWeights : HashMap ProviderId F64
  defaultBackoff : Option ResolvedBackoff
  groups : HashMap String MethodPolicy
  overrideSet : OverrideSet

def weightOf (weight : UInt16) : F64 := .fin weight.toNat

def normalizeProviderWeights (weights : HashMap ProviderId UInt16) : HashMap ProviderId F64 :=
  HashMap.collect (weights.pairs.map fun (provider, weight) => (provider, weightOf weight))

def mergeProviderWeights (base : HashMap ProviderId F64) (overrides : HashMap ProviderId UInt16) :
    HashMap ProviderId F64 :=
  HashMap.insertAll base (overrides.pairs.map fun (provider, weight) => (provider, weightOf weight))

/-- The backoff that a block fills in where nothing is inherited. -/
def ResolvedBackoff.builtin : ResolvedBackoff where
  min := Duration.fromMillis 200
  max := Duration.fromMillis 2000
  jitter := .fin (3 / 10)

def resolveBackoff (config : BackoffConfig) (fallBack : Option ResolvedBackoff) : ResolvedBackoff :=
  let base := fallBack.getD .builtin
  { min := (config.minMs.map Duration.fromMillis).getD base.min
    max := (config.maxMs.map Duration.fromMillis).getD base.max
    jitter := config.jitter.getD base.jitter }

def resolveDefaults (defaults : MethodDefaults) (config : ProxyConfig) : ResolvedDefaults where
  timeout := (defaults.timeoutMs.map Duration.fromMillis).getD (Duration.fromMillis config.defaultTimeoutMs)
  tolerance := defaults.tolerance.getD .balanced
  maxRetries := (defaults.maxRetries.getD config.maxRetries).toNat
  weightMultiplier := defaults.weightMultiplier.getD (.fin 1)
  providerWeights := normalizeProviderWeights defaults.providerWeights
  backoff := defaults.backoff.map fun cfg => resolveBackoff cfg none

/-- The settings `cfg` over the policy `base`: what groups do over the defaults and overrides over their
    group or the defaults. -/
def overlay (base : MethodPolicy) (cfg : MethodSettings) : MethodPolicy where
  timeout := (cfg.timeoutMs.map Duration.fromMillis).getD base.timeout
  tolerance := cfg.tolerance.getD base.tolerance
  maxRetries := (cfg.maxRetries.map (·.toNat)).getD base.maxRetries
  weightMultiplier := cfg.weightMultiplier.getD base.weightMultiplier
  providerWeights := mergeProviderWeights base.providerWeights cfg.providerWeights
  backoff := (cfg.backoff.map fun b => resolveBackoff b base.backoff).or base.backoff

def buildGroupPolicies (groups : HashMap String MethodGroupConfig) (defaults : ResolvedDefaults) :
    HashMap String MethodPolicy :=
  HashMap.collect (groups.pairs.map fun (name, cfg) => (name, overlay defaults cfg))

def buildOverridePolicies (overrides : List MethodOverrideConfig) (groups : HashMap String MethodPolicy)
    (defaults : ResolvedDefaults) : List ResolvedOverride :=
  overrides.map fun cfg =>
    let basePolicy := (cfg.group.bind fun group => groups.lookup group).getD defaults
    { pattern := cfg.pattern, policy := overlay basePolicy cfg.toMethodSettings }

/-- The first pattern that does not parse is the error, else what building the set says. -/
def OverrideSet.new (g : Globs) (overrides : List ResolvedOverride) : Except MethodRegistryError OverrideSet :=
  let patterns := overrides.map (·.pattern)
  match patterns.findSome? fun pattern => (g.parseError pattern).map (pattern, ·) with
  | some (pattern, source) => .error (.invalidGlob pattern source)
  | none =>
    match g.buildError patterns with
    | some source => .error (.invalidGlob "<set>" source)
    | none => .ok { globset := patterns, entries := overrides.map fun o => ⟨o.pattern, o.policy⟩ }

def OverrideSet.matches (g : Globs) (set : OverrideSet) (method : String) : Option MethodPolicy :=
  if set.entries.isEmpty then none
  else ((g.matches set.globset method).getLast?.bind fun idx => set.entries[idx]?).map (·.policy)

namespace MethodRegistry

def new (g : Globs) (config : ProxyConfig) : Except MethodRegistryError MethodRegistry :=
  let methods := config.methods
  let defaults := resolveDefaults methods.default config
  let groups := buildGroupPolicies methods.groups defaults
  let overrides := buildOverridePolicies methods.overrides groups defaults
  match OverrideSet.new g overrides with
  | .error e => .error e
  | .ok overrideSet => .ok
    { defaultTimeout := defaults.timeout
      defaultTolerance := defaults.tolerance
      defaultMaxRetries := defaults.maxRetries
      defaultWeightMultiplier := defaults.weightMultiplier
      defaultProviderWeights := defaults.providerWeights
      defaultBackoff := defaults.backoff
      groups
      overrideSet }

def resolve (g : Globs) (registry : MethodRegistry) (method : Option String) : MethodPolicy :=
  match registry.overrideSet.matches g (method.getD "*") with
  | some policy => policy
  | none =>
    { tolerance := registry.defaultTolerance
      timeout := registry.defaultTimeout
      weightMultiplier := registry.defaultWeightMultiplier
      maxRetries := registry.defaultMaxRetries
      providerWeights := registry.defaultProviderWeights
      backoff := registry.defaultBackoff }

end MethodRegistry
end Rpceth
