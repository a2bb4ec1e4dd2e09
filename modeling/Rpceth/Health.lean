import Rpceth.Provider

/-! `proxy-core/src/health/model.rs` and `health/service.rs`, over exact rational numbers. The ticker and
    the probe of the service are left out: a probe result is an argument. -/

namespace Rpceth
open Lib

inductive ToleranceLevel where
  | strict
  | balanced
  | relaxed
  deriving DecidableEq, Repr

def ToleranceLevel.threshold : ToleranceLevel → Rat
  | strict => 1 / 10
  | balanced => 3 / 10
  | relaxed => 5 / 10

structure ProviderHealthSnapshot where
  provider : ProviderId
  score : Rat
  syncScore : Rat
  latencyScore : Rat
  successScore : Rat
  methodSupportScore : Rat
  latestBlock : Option UInt64
  chainId : Option UInt64
  lastUpdated : Option Instant
  consecutiveFailures : UInt32
  deriving DecidableEq, Repr

def ProviderHealthSnapshot.isWithinTolerance (s : ProviderHealthSnapshot) (bestScore : Rat)
    (tolerance : ToleranceLevel) : Bool :=
  if bestScore ≤ 0 then true
  else decide (bestScore - s.score ≤ tolerance.threshold * bestScore)

structure ProbeSuccess where
  provider : ProviderId
  latency : Duration
  blockNumber : UInt64
  chainId : UInt64
  methodSupportScore : Rat
  deriving DecidableEq, Repr

inductive FailureReason where
  | timeout
  | http (status : UInt16)
  | transport (message : String)
  | invalidPayload (message : String)
  deriving DecidableEq, Repr

structure ProbeFailureKind where
  provider : ProviderId
  latency : Option Duration
  reason : FailureReason
  deriving DecidableEq, Repr

structure ProviderHealthState where
  provider : ProviderHandle
  latestBlock : Option UInt64
  chainId : Option UInt64
  latencyAvg : Rat
  successRate : Rat
  syncScore : Rat
  methodSupportScore : Rat
  lastUpdated : Option Instant
  consecutiveFailures : UInt32
  deriving DecidableEq, Repr

/-- `x.clamp(0.0, 1.0)`. -/
def clamp01 (x : Rat) : Rat := max 0 (min x 1)

/-- The smoothing factor of both moving averages. -/
def alpha : Rat := 3 / 10

namespace ProviderHealthState

def new (provider : ProviderHandle) : ProviderHealthState where
  provider := provider
  latestBlock := none
  chainId := none
  latencyAvg := 0
  successRate := 1
  syncScore := 1
  methodSupportScore := 1
  lastUpdated := none
  consecutiveFailures := 0

def applySuccess (s : ProviderHealthState) (now : Instant) (success : ProbeSuccess) : ProviderHealthState :=
  let latencyMs := Duration.asMillis success.latency
  { s with
    latencyAvg := if s.latencyAvg = 0 then latencyMs else (1 - alpha) * s.latencyAvg + alpha * latencyMs
    successRate := (1 - alpha) * s.successRate + alpha
    syncScore := 1
    methodSupportScore := success.methodSupportScore
    latestBlock := some success.blockNumber
    chainId := some success.chainId
    lastUpdated := some now
    consecutiveFailures := 0 }

/-- The failure itself is not looked at. -/
def applyFailure (s : ProviderHealthState) (now : Instant) (_failure : ProbeFailureKind) : ProviderHealthState :=
  { s with
    successRate := s.successRate * (1 - alpha)
    consecutiveFailures := s.consecutiveFailures + 1
    lastUpdated := some now }

def latencyScore (s : ProviderHealthState) : Rat :=
  if s.latencyAvg ≤ 0 then 1 else clamp01 (2000 / s.latencyAvg)

def score (s : ProviderHealthState) : Rat :=
  clamp01 s.syncScore * (4 / 10) + s.latencyScore * (3 / 10) + clamp01 s.successRate * (2 / 10) +
    clamp01 s.methodSupportScore * (1 / 10)

def snapshot (s : ProviderHealthState) : ProviderHealthSnapshot where
  provider := s.provider.id
  score := s.score
  syncScore := s.syncScore
  latencyScore := s.latencyScore
  successScore := s.successRate
  methodSupportScore := s.methodSupportScore
  latestBlock := s.latestBlock
  chainId := s.chainId
  lastUpdated := s.lastUpdated
  consecutiveFailures := s.consecutiveFailures

end ProviderHealthState

/-- What the `DashMap` of a service holds. -/
abbrev HealthStates := HashMap ProviderId ProviderHealthState

structure HealthService where
  state : HealthStates
  tolerance : ToleranceLevel
  deriving DecidableEq

namespace HealthService

def new (providers : List ProviderHandle) (tolerance : ToleranceLevel) : HealthService where
  state := HashMap.collect (providers.map fun p => (p.id, ProviderHealthState.new p))
  tolerance := tolerance

def snapshots (h : HealthService) : List ProviderHealthSnapshot := h.state.entries.map fun e => e.2.snapshot

def bestScore (h : HealthService) : Rat := (h.state.entries.map fun e => e.2.score).foldl max 0

/-- The service is read twice, for the best score and then for the snapshots. `atBest` is the service at
    the first reading, `h` the service at the second. -/
def filteredSnapshots (atBest h : HealthService) : List ProviderHealthSnapshot :=
  h.snapshots.filter fun s => s.isWithinTolerance atBest.bestScore h.tolerance

def applySuccess (h : HealthService) (now : Instant) (success : ProbeSuccess) : HealthService :=
  { h with state := HashMap.modify h.state success.provider (·.applySuccess now success) }

def applyFailure (h : HealthService) (now : Instant) (failure : ProbeFailureKind) : HealthService :=
  { h with state := HashMap.modify h.state failure.provider (·.applyFailure now failure) }

end HealthService
end Rpceth
