import Mathlib.Data.Finset.SDiff
import Rpceth.Lib.Program
import Rpceth.Server.Handler

/-! The same functions once more, as the tasks of `tokio` run them: a request is a program that calls what it
    shares with the other requests of its chain, and goes on with the answers. `Server/Handler.lean` has these
    answers from an environment; here other tasks run between any two calls. An iteration over the health map is
    a call for each of its entries, so that probes may end in the middle of it. -/

namespace Rpceth
open Lib

/-- What a request calls: the entries of the health map, the two locks of the load balancer, the circuit breaker,
    the HTTP client and the timer. -/
inductive Access where
  | readEntry (provider : ProviderId)
  /-- The lock of the cursor, held for one selection among the eligible providers. -/
  | lockCursor (balancer : LoadBalancer) (eligible : List ProviderHandle)
  | lockRng
  | isAvailable (provider : ProviderId)
  | onRequestStart (provider : ProviderId)
  | forward (provider : ProviderHandle) (timeout : Duration)
  | onSuccess (provider : ProviderId)
  | onFailure (provider : ProviderId)
  | delay (duration : Duration)

/-- `lockCursor` answers with the cursor that the lock is taken at. -/
def Access.Answer : Access → Type
  | .readEntry _ => Option ProviderHealthState
  | .lockCursor _ _ => Nat
  | .lockRng => WeightedIndex
  | .isAvailable _ => Bool
  | .forward _ _ => Except String ProviderResponse
  | .onRequestStart _ | .onSuccess _ | .onFailure _ | .delay _ => Unit

/-- An access, and the chain whose runtime it goes through. -/
abbrev ChainAccess := ChainKey × Access

abbrev ChainTask (α : Type) := Program ChainAccess (fun op => op.2.Answer) α

/-- An entry of the health map as it was read. -/
abbrev Entry : Type := ProviderId × Option ProviderHealthState

/-- The map that an iteration has seen. -/
def collectEntries (entries : List Entry) : HealthStates :=
  HashMap.collect (entries.filterMap fun e => e.2.map (Prod.mk e.1))

namespace Tasks

/-- The access `a` through the runtime of the chain `key`. -/
def ask (key : ChainKey) (a : Access) : ChainTask a.Answer := @Program.ask ChainAccess (fun op => op.2.Answer) (key, a)

section
variable (key : ChainKey)

/-- The provider, with its entry if there is one. -/
def readEntry (provider : ProviderId) : ChainTask Entry := do
  let entry ← ask key (.readEntry provider)
  pure (provider, entry)

def lockCursor (lb : LoadBalancer) (eligible : List ProviderHandle) : ChainTask Nat := ask key (.lockCursor lb eligible)

def lockRng : ChainTask WeightedIndex := ask key .lockRng

def isAvailable (provider : ProviderId) : ChainTask Bool := ask key (.isAvailable provider)

def onRequestStart (provider : ProviderId) : ChainTask Unit := ask key (.onRequestStart provider)

def forwardToProvider (provider : ProviderHandle) (timeout : Duration) :
    ChainTask (Except String ProviderResponse) :=
  ask key (.forward provider timeout)

def onSuccess (provider : ProviderId) : ChainTask Unit := ask key (.onSuccess provider)

def onFailure (provider : ProviderId) : ChainTask Unit := ask key (.onFailure provider)

def delay (duration : Duration) : ChainTask Unit := ask key (.delay duration)

end

/-! ### `health/service.rs` -/

section
variable (key : ChainKey)

/-- An iteration over the map of a service, whose keys never change. -/
def readHealth (health : HealthService) : ChainTask HealthStates := do
  let entries ← Program.forEach (readEntry key) health.state.keys
  pure (collectEntries entries)

end

/-! ### `load_balancer.rs` -/

section
variable (key : ChainKey) (lb : LoadBalancer)

/-- The health map is read again for `best_score` only where a snapshot is left. -/
def healthFilter (policy : Option MethodPolicy) : ChainTask HealthFilter :=
  match lb.health with
  | some health => do
    let atBest ← readHealth key health
    let atSnapshots ← readHealth key health
    let filtered := HealthService.filteredSnapshots { health with state := atBest }
      { health with state := atSnapshots }
    let tolerance := (policy.map (·.tolerance)).getD health.tolerance
    if filtered.isEmpty then
      pure { healthScores := ∅, bestScore := 0, tolerance, allowAny := true }
    else do
      let atBestAgain ← readHealth key health
      pure
        { healthScores := HashMap.collect (filtered.map fun snapshot => (snapshot.provider, snapshot))
          bestScore := HealthService.bestScore { health with state := atBestAgain }
          tolerance
          allowAny := false }
  | none =>
    pure
      { healthScores := ∅, bestScore := 0, tolerance := (policy.map (·.tolerance)).getD .balanced
        allowAny := true }

def nextRoundRobinFiltered (eligible : List ProviderHandle) :
    ChainTask { r : Option ProviderHandle // ∀ h ∈ r, h ∈ lb.pool.providers ∧ ∃ e ∈ eligible, e.id = h.id } :=
  if lb.pool.len = 0 then pure ⟨none, nofun⟩
  else do
    let cursor ← lockCursor key lb eligible
    pure ⟨(lb.nextRoundRobinFiltered cursor eligible).1, fun _ h =>
      LoadBalancer.nextRoundRobinFiltered_eq_some (Prod.ext h rfl)⟩

def weightedRandomFrom (eligible : List ProviderHandle) (healthScores : HashMap ProviderId ProviderHealthSnapshot)
    (policy : Option MethodPolicy) : ChainTask { r : Option ProviderHandle // ∀ h ∈ r, h ∈ eligible } :=
  match eligible with
  | [] => pure ⟨none, nofun⟩
  | [provider] => pure ⟨some provider, fun _ h => List.mem_singleton.mpr (Option.some.inj h).symm⟩
  | providers => do
    let rng ← lockRng key
    pure ⟨LoadBalancer.weightedRandomFrom rng providers healthScores policy, fun _ h =>
      LoadBalancer.weightedRandomFrom_mem h⟩

/-- What `select` may return. -/
def Selection (lb : LoadBalancer) (exclude : Finset ProviderId) : Type :=
  { r : Option ProviderHandle // ∀ h ∈ r, h ∈ lb.pool.providers ∧ h.id ∉ exclude }

def select (exclude : Finset ProviderId) (policy : Option MethodPolicy) : ChainTask (Selection lb exclude) := do
  let filter ← healthFilter key lb policy
  let eligible := lb.eligible filter exclude
  if eligible.isEmpty then pure ⟨none, nofun⟩
  else match lb.strategy with
    | .roundRobin => do
      let r ← nextRoundRobinFiltered key lb eligible
      pure ⟨r.1, fun h hr => by
        obtain ⟨hpool, e, he, hid⟩ := r.2 h hr
        exact ⟨hpool, hid ▸ (LoadBalancer.mem_eligible.mp he).2.1⟩⟩
    | .weightedRandom => do
      let r ← weightedRandomFrom key eligible filter.healthScores policy
      pure ⟨r.1, fun h hr =>
        have he := LoadBalancer.mem_eligible.mp (r.2 h hr)
        ⟨he.1, he.2.1⟩⟩

end

/-! ### `lib.rs` -/

section
variable (chain : ChainRuntime) (providersById : HashMap ProviderId ProviderHandle) (ctx : RequestContext)
  (policy : MethodPolicy)

/-- One more provider excluded leaves fewer in the pool. -/
theorem card_sdiff_insert_lt {lb : LoadBalancer} {excluded : Finset ProviderId} {h : ProviderHandle}
    (hsel : h ∈ lb.pool.providers ∧ h.id ∉ excluded) :
    (lb.pool.ids \ insert h.id excluded).card < (lb.pool.ids \ excluded).card := by
  rw [Finset.sdiff_insert]
  exact Finset.card_erase_lt_of_mem (Finset.mem_sdiff.mpr ⟨ProviderPool.mem_ids hsel.1, hsel.2⟩)

/-- The loop of `select_provider`. -/
def selectAvailable (excluded : Finset ProviderId) : ChainTask (Option ProviderHandle) :=
  (select chain.id chain.loadBalancer excluded (some policy)).bind fun
    | ⟨none, _⟩ => pure none
    | ⟨some provider, hsel⟩ =>
      have := card_sdiff_insert_lt (hsel provider rfl)
      do
        if ← isAvailable chain.id provider.id then pure (some provider)
        else selectAvailable (insert provider.id excluded)
termination_by (chain.loadBalancer.pool.ids \ excluded).card

def selectProvider (tried : Finset ProviderId) : ChainTask (Option ProviderHandle) :=
  match ctx.providerOverride with
  | none => selectAvailable chain policy tried
  | some overrideId =>
    let excluded := insert overrideId tried
    if overrideId ∈ tried then selectAvailable chain policy excluded
    else if overrideId ∉ chain.providers then pure none
    else match providersById.lookup overrideId with
      | none => selectAvailable chain policy excluded
      | some handle => do
        if ← isAvailable chain.id overrideId then pure (some handle)
        else selectAvailable chain policy excluded

variable (tower : Tower)

/-- The delay after a failed attempt, if one follows in the budget and there is a backoff. -/
def backoffDelay (attempt maxAttempts : Nat) (backoff : Option tower.Backoff) :
    ChainTask (Option tower.Backoff) :=
  if attempt + 1 < maxAttempts then
    match backoff with
    | some b => do
      delay chain.id (tower.nextBackoff b).1
      pure (some (tower.nextBackoff b).2)
    | none => pure none
  else pure backoff

/-- `for attempt in 0..max_attempts`, with `remaining` attempts to go. -/
def attempts (maxAttempts : Nat) :
    Nat → Finset ProviderId → Option String → Option tower.Backoff → ChainTask LoopEnd
  | 0, _, lastError, _ => pure (.exhausted lastError)
  | remaining + 1, tried, lastError, backoff => do
    match ← selectProvider chain providersById ctx policy tried with
    | none => pure (.exhausted lastError)
    | some provider =>
      onRequestStart chain.id provider.id
      match ← forwardToProvider chain.id provider (max provider.timeout policy.timeout) with
      | .ok response =>
        onSuccess chain.id provider.id
        pure (.success response)
      | .error message =>
        onFailure chain.id provider.id
        let attempt := maxAttempts - (remaining + 1)
        let backoff ← backoffDelay chain tower attempt maxAttempts backoff
        attempts maxAttempts remaining (insert provider.id tried) (some message) backoff

/-- The loop with its set-up; `none` is the panic of `make_backoff`. -/
def requestLoop : Option (ChainTask LoopEnd) :=
  let maxAttempts := max policy.maxRetries 1
  let start (backoff : Option tower.Backoff) : ChainTask LoopEnd :=
    attempts chain providersById ctx policy tower maxAttempts maxAttempts ∅ none backoff
  match policy.backoff with
  | none => some (start none)
  | some b => (makeBackoff tower b).map fun backoff => start (some backoff)

end

/-- A call of `proxy_handler_impl` with its trace id. -/
structure Job where
  call : HandlerCall
  traceId : String

def proxyHandlerImpl (globs : Globs) (decode : String → String) (tower : Tower) (state : ProxyState) (job : Job) :
    ChainTask HandlerEnd :=
  match state.resolveChain decode job.call.chainId with
  | .error err => pure (.responded (.failure (buildChainErrorResponse job.call.body job.traceId err)))
  | .ok chain =>
    let policy := chain.methodRegistry.resolve globs (some (methodName job.call.body))
    match requestLoop chain state.providersById job.call.ctx policy tower with
    | none => pure .panicked
    | some loop => do
      let ending ← loop
      pure (respond job.call.body job.traceId ending)

end Tasks
end Rpceth
