import Rpceth.Provider

/-! `proxy-core/src/circuit.rs`: the circuit breaker of a chain. Every operation holds the lock of the
    entry it works on and reads the clock once, so it is one step at an instant `now`. -/

namespace Rpceth
open Lib

structure ResolvedCircuitBreaker where
  failureThreshold : UInt32
  resetTimeout : Duration
  halfOpenProbe : UInt32
  deriving DecidableEq, Repr

def ResolvedCircuitBreaker.fromConfigs (global provider : CircuitBreakerConfig) : ResolvedCircuitBreaker where
  failureThreshold := (provider.failureThreshold.or global.failureThreshold).getD 3
  resetTimeout := Duration.fromMillis ((provider.resetTimeoutMs.or global.resetTimeoutMs).getD 30000)
  halfOpenProbe := (provider.halfOpenProbe.or global.halfOpenProbe).getD 1

inductive InnerState where
  | closed (failures : UInt32)
  | opened (failures : UInt32) (retryAt : Instant)
  | halfOpen (failures attempts : UInt32)
  deriving DecidableEq, Repr

namespace InnerState

def failures : InnerState → UInt32
  | closed f | opened f _ | halfOpen f _ => f

def isAvailable (config : ResolvedCircuitBreaker) (now : Instant) : InnerState → Bool
  | closed _ => true
  | opened _ retryAt => decide (retryAt ≤ now)
  | halfOpen _ attempts => decide (attempts < config.halfOpenProbe)

/-- The request that finds the window over opens the half-open period; it is not among its `attempts`. -/
def onRequestStart (now : Instant) : InnerState → InnerState
  | closed f => closed f
  | opened f retryAt => if retryAt ≤ now then halfOpen f 0 else opened f retryAt
  | halfOpen f attempts => halfOpen f (saturatingSucc attempts)

def onSuccess : InnerState → InnerState := fun _ => closed 0

def onFailure (config : ResolvedCircuitBreaker) (now : Instant) : InnerState → InnerState
  | closed f =>
    let f := saturatingSucc f
    if config.failureThreshold ≤ f then opened f (now + config.resetTimeout) else closed f
  | halfOpen f _ => opened (saturatingSucc f) (now + config.resetTimeout)
  | opened f _ => opened (saturatingSucc f) (now + config.resetTimeout)

variable {state : InnerState} {f n : UInt32} {now retryAt : Instant}

theorem onRequestStart_due (h : retryAt ≤ now) : (opened f retryAt).onRequestStart now = halfOpen f 0 := if_pos h

theorem onRequestStart_early (h : ¬retryAt ≤ now) : (opened f retryAt).onRequestStart now = opened f retryAt :=
  if_neg h

theorem onRequestStart_eq_halfOpen (h : state.onRequestStart now = halfOpen f n) :
    (∃ retryAt, state = opened f retryAt ∧ retryAt ≤ now ∧ n = 0) ∨
      ∃ m, state = halfOpen f m ∧ n = saturatingSucc m := by
  cases state with
  | closed f' => cases h
  | opened f' retryAt =>
    by_cases hdue : retryAt ≤ now
    · rw [onRequestStart_due hdue] at h
      cases h
      exact .inl ⟨retryAt, rfl, hdue, rfl⟩
    · rw [onRequestStart_early hdue] at h
      cases h
  | halfOpen f' m =>
    cases h
    exact .inr ⟨m, rfl, rfl⟩

theorem onFailure_ne_halfOpen (config : ResolvedCircuitBreaker) (now : Instant) (state : InnerState) (f n : UInt32) :
    state.onFailure config now ≠ halfOpen f n := by
  intro h
  cases state with
  | closed f' =>
    simp only [onFailure] at h
    split at h <;> cases h
  | opened f' retryAt => cases h
  | halfOpen f' m => cases h

end InnerState

structure ProviderCircuit where
  config : ResolvedCircuitBreaker
  state : InnerState
  deriving DecidableEq, Repr

structure CircuitBreaker where
  entries : HashMap ProviderId ProviderCircuit
  deriving DecidableEq

namespace CircuitBreaker

def new (handles : List ProviderHandle) (global : CircuitBreakerConfig) : CircuitBreaker where
  entries := HashMap.collect (handles.map fun handle =>
    (handle.id, ⟨ResolvedCircuitBreaker.fromConfigs global handle.circuitBreaker, .closed 0⟩))

/-- A provider without an entry is available. -/
def isAvailable (b : CircuitBreaker) (now : Instant) (provider : ProviderId) : Bool :=
  match b.entries.lookup provider with
  | some entry => entry.state.isAvailable entry.config now
  | none => true

theorem isAvailable_mono {b : CircuitBreaker} {now later : Instant} (hle : now ≤ later) {provider : ProviderId}
    (h : b.isAvailable now provider = true) : b.isAvailable later provider = true := by
  unfold isAvailable at h ⊢
  cases hentry : b.entries.lookup provider with
  | none => rfl
  | some entry =>
    obtain ⟨config, state⟩ := entry
    rw [hentry] at h
    cases state with
    | closed f => rfl
    | opened f retryAt => exact decide_eq_true (Nat.le_trans (of_decide_eq_true h) hle)
    | halfOpen f attempts => exact h

/-- `entries.get_mut(provider)`: the entry's state is updated, a missing entry is not created. -/
def updateState (b : CircuitBreaker) (provider : ProviderId)
    (f : ResolvedCircuitBreaker → InnerState → InnerState) : CircuitBreaker where
  entries := b.entries.modify provider fun entry => { entry with state := f entry.config entry.state }

def onRequestStart (b : CircuitBreaker) (now : Instant) (provider : ProviderId) : CircuitBreaker :=
  b.updateState provider fun _ s => s.onRequestStart now

def onSuccess (b : CircuitBreaker) (provider : ProviderId) : CircuitBreaker :=
  b.updateState provider fun _ s => s.onSuccess

def onFailure (b : CircuitBreaker) (now : Instant) (provider : ProviderId) : CircuitBreaker :=
  b.updateState provider fun config s => s.onFailure config now

theorem lookup_updateState (b : CircuitBreaker) (provider p : ProviderId)
    (f : ResolvedCircuitBreaker → InnerState → InnerState) :
    (b.updateState provider f).entries.lookup p =
      if p = provider then (b.entries.lookup p).map fun e => { e with state := f e.config e.state }
      else b.entries.lookup p :=
  HashMap.lookup_modify _ _ _ _

theorem lookup_updateState_ne {b : CircuitBreaker} {provider p : ProviderId} (h : p ≠ provider)
    (f : ResolvedCircuitBreaker → InnerState → InnerState) :
    (b.updateState provider f).entries.lookup p = b.entries.lookup p := by
  rw [lookup_updateState, if_neg h]

/-- Every entry of a new breaker is closed without failures, with settings merged from a handle of its
    provider. -/
theorem lookup_new {handles : List ProviderHandle} {global : CircuitBreakerConfig} {p : ProviderId}
    {e : ProviderCircuit} (h : (new handles global).entries.lookup p = some e) :
    e.state = .closed 0 ∧ ∃ handle ∈ handles, handle.id = p ∧
      e.config = ResolvedCircuitBreaker.fromConfigs global handle.circuitBreaker := by
  obtain ⟨handle, hh, rfl, rfl⟩ := HashMap.exists_of_lookup_collect h
  exact ⟨rfl, handle, hh, rfl, rfl⟩

end CircuitBreaker
end Rpceth
