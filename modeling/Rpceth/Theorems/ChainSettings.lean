import Rpceth.Theorems.ChainRouting
import Rpceth.Theorems.MethodPolicies

/-! What an accepted configuration makes of two settings that exist on several levels: the circuit breaker of a
    provider, and the tolerance of a chain and of its methods. -/

namespace Rpceth
open Lib

/-! ### Circuit breakers -/

/-- A breaker that opens only after a failure, stays open for a time, and admits a probe after it. -/
structure ResolvedCircuitBreaker.Sane (config : ResolvedCircuitBreaker) : Prop where
  failureThreshold : 1 ≤ config.failureThreshold
  resetTimeout : 0 < config.resetTimeout
  halfOpenProbe : 1 ≤ config.halfOpenProbe

/-- No setting of the block is zero. -/
structure CircuitBreakerConfig.Positive (config : CircuitBreakerConfig) : Prop where
  failureThreshold : config.failureThreshold ≠ some 0
  resetTimeoutMs : config.resetTimeoutMs ≠ some 0
  halfOpenProbe : config.halfOpenProbe ≠ some 0

theorem validateCircuitBreaker_eq_ok {config : CircuitBreakerConfig} :
    validateCircuitBreaker config = .ok () ↔ config.Positive := by
  simp only [validateCircuitBreaker, check_bind_eq_ok, rejectZero_eq_ok]
  constructor
  · rintro ⟨hthreshold, htimeout, hprobe⟩
    exact ⟨hthreshold, htimeout, hprobe⟩
  · rintro ⟨hthreshold, htimeout, hprobe⟩
    exact ⟨hthreshold, htimeout, hprobe⟩

theorem merged_ne_zero {α : Type} {zero : α} {global : Option α} (hglobal : global ≠ some zero) {resort : α}
    (hresort : resort ≠ zero) (own : Option α) : (own.or global).getD resort ≠ zero ↔ own ≠ some zero := by
  cases own with
  | some value =>
    rw [Option.some_or, Option.getD_some, Ne, Ne, Option.some.injEq]
  | none =>
    rw [Option.none_or]
    constructor
    · intro _ h
      cases h
    · intro _
      cases global with
      | none => exact hresort
      | some value => exact fun h => hglobal (congrArg some h)

theorem one_le_iff_ne_zero {n : UInt32} : 1 ≤ n ↔ n ≠ 0 := by
  rw [UInt32.le_iff_toNat_le, Ne, ← UInt32.toNat_inj]
  simp only [UInt32.toNat_one, UInt32.toNat_zero]
  omega

/-- The breaker of a provider of an accepted configuration is sane exactly if the provider's own block sets
    nothing to zero: only the global block is validated. -/
theorem breaker_sane_iff (config : ProxyConfig) (hvalid : validate config = .ok ()) (provider : ProviderConfig)
    (_ : provider ∈ config.providers) :
    (ResolvedCircuitBreaker.fromConfigs config.circuitBreaker provider.circuitBreaker).Sane ↔
      provider.circuitBreaker.Positive := by
  obtain ⟨hthreshold, htimeout, hprobe⟩ := validateCircuitBreaker_eq_ok.mp (validate_eq_ok hvalid).circuitBreaker
  have threshold := one_le_iff_ne_zero.trans
    (merged_ne_zero hthreshold (show (3 : UInt32) ≠ 0 by decide) provider.circuitBreaker.failureThreshold)
  have timeout := Duration.fromMillis_pos.trans
    (merged_ne_zero htimeout (show (30000 : UInt64) ≠ 0 by decide) provider.circuitBreaker.resetTimeoutMs)
  have probe := one_le_iff_ne_zero.trans
    (merged_ne_zero hprobe (show (1 : UInt32) ≠ 0 by decide) provider.circuitBreaker.halfOpenProbe)
  constructor
  · rintro ⟨h₁, h₂, h₃⟩
    exact ⟨threshold.mp h₁, timeout.mp h₂, probe.mp h₃⟩
  · rintro ⟨h₁, h₂, h₃⟩
    exact ⟨threshold.mpr h₁, timeout.mpr h₂, probe.mpr h₃⟩

/-- One provider with this breaker block. -/
def breakerConfig (circuitBreaker : CircuitBreakerConfig) : ProxyConfig where
  auth := ⟨"secret"⟩
  providers := [{ id := ⟨"a"⟩, url := "https://a.example", circuitBreaker }]

/-- A provider that admits no probe is accepted. -/
theorem not_always_sane :
    ¬∀ config provider, validate config = .ok () → provider ∈ config.providers →
      (ResolvedCircuitBreaker.fromConfigs config.circuitBreaker provider.circuitBreaker).Sane := by
  intro h
  have hsane := h (breakerConfig { halfOpenProbe := some 0 }) _ rfl List.mem_cons_self
  exact absurd hsane.halfOpenProbe (by decide)

theorem breaker_sane_two_probes :
    (ResolvedCircuitBreaker.fromConfigs {} { halfOpenProbe := some 2 }).Sane :=
  (breaker_sane_iff (breakerConfig { halfOpenProbe := some 2 }) rfl _ List.mem_cons_self).mpr
    ⟨by decide, by decide, by decide⟩

/-! ### Tolerances -/

/-- Where neither the chain nor a layer of the method sets a tolerance, both have the configured default exactly
    if this is the balanced one. -/
theorem default_tolerance_iff (decode : String → String) (globs : Globs) (config : ProxyConfig)
    (_ : validate config = .ok ()) (state : ProxyState) (hstate : ProxyState.new decode globs config = .ok state)
    (key : ChainKey) (chain : ChainRuntime) (hchain : state.chains.lookup key = some chain)
    (hunset : ∀ entry, config.chains.lookup key.text = some entry → entry.tolerance = none) (method : String)
    (hlayers : ∀ layer ∈ config.methods.layers (winningOverride globs config.methods.overrides method),
      layer.tolerance = none) :
    (chain.tolerance = config.defaultTolerance ∧
      (chain.methodRegistry.resolve globs (some method)).tolerance = config.defaultTolerance) ↔
    config.defaultTolerance = .balanced := by
  obtain ⟨registry, aliases, tolerance, providers, hreg, rfl, htolerance⟩ := proxyState_chain hstate hchain
  have hmethod : (registry.resolve globs (some method)).tolerance = .balanced := by
    rw [(resolve_follows hreg method).tolerance, List.findSome?_eq_none_iff.mpr hlayers]
    rfl
  show tolerance = _ ∧ (registry.resolve globs (some method)).tolerance = _ ↔ _
  rw [hmethod]
  constructor
  · rintro ⟨-, h⟩
    exact h.symm
  · intro h
    refine ⟨?_, h.symm⟩
    rcases htolerance with ⟨-, hbalanced, -⟩ | ⟨entry, hentry, hset, -⟩
    · exact hbalanced.trans h.symm
    · rw [hset, hunset entry hentry]
      rfl

/-- One chain without a tolerance of its own. -/
def toleranceConfig (defaultTolerance : ToleranceLevel) : ProxyConfig :=
  { smallConfig with
    defaultTolerance
    chains := HashMap.collect [("eth", { providers := [⟨"a"⟩] })]
    defaultChain := some "eth" }

/-- The methods of the chain do not get the strict tolerance that is configured. -/
theorem not_always_default_tolerance :
    ¬∀ decode globs config state key chain method, validate config = .ok () →
      ProxyState.new decode globs config = .ok state → state.chains.lookup key = some chain →
      (∀ entry, config.chains.lookup key.text = some entry → entry.tolerance = none) →
      (∀ layer ∈ config.methods.layers (winningOverride globs config.methods.overrides method),
        layer.tolerance = none) →
      chain.tolerance = config.defaultTolerance ∧
        (chain.methodRegistry.resolve globs (some method)).tolerance = config.defaultTolerance := by
  intro h
  have htolerance := h id literalGlobs (toleranceConfig .strict) _ ⟨"eth"⟩ _ "eth_call" rfl rfl rfl
    (fun entry hentry => by cases hentry; rfl) (by decide)
  exact absurd htolerance.2 (by decide)

theorem default_tolerance_balanced :
    ∃ state chain, ProxyState.new id literalGlobs (toleranceConfig .balanced) = .ok state ∧
      state.chains.lookup ⟨"eth"⟩ = some chain ∧ chain.tolerance = .balanced ∧
      (chain.methodRegistry.resolve literalGlobs (some "eth_call")).tolerance = .balanced := by
  refine ⟨_, _, rfl, rfl, ?_⟩
  exact (default_tolerance_iff id literalGlobs (toleranceConfig .balanced) rfl _ rfl ⟨"eth"⟩ _ rfl
    (fun entry hentry => by cases hentry; rfl) "eth_call" (by decide)).mpr rfl

end Rpceth
