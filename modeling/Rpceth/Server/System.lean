import Rpceth.Lib.Interleaving
import Rpceth.Probe
import Rpceth.Server.Tasks

/-! The server as it runs: the requests are tasks over one memory, which holds the health map, the cursor and the
    circuit breaker of every chain. Probe results and the clock change the memory from outside; the random
    numbers and the upstream nodes come in at each step. -/

namespace Rpceth
open Lib

/-- What the requests of a chain share. A chain without a health service has an empty one here, which no request
    reads. -/
structure ChainMemory where
  health : HealthService
  cursor : Nat
  breaker : CircuitBreaker

structure ServerMemory where
  now : Instant
  chains : ChainKey → ChainMemory

structure Input where
  rng : WeightedIndex
  upstream : ProviderHandle → Exchange

/-- What changes the memory apart from the requests: the clock, and the end of a probe task. -/
inductive External where
  | tick (elapsed : Duration)
  | probed (key : ChainKey) (provider : ProviderHandle) (client : Post → ProbeExchange)

namespace ServerMemory

def modify (memory : ServerMemory) (key : ChainKey) (f : ChainMemory → ChainMemory) : ServerMemory :=
  { memory with chains := Function.update memory.chains key (f (memory.chains key)) }

@[simp] theorem now_modify (memory : ServerMemory) (key : ChainKey) (f : ChainMemory → ChainMemory) :
    (memory.modify key f).now = memory.now := rfl

@[simp] theorem chains_modify (memory : ServerMemory) (key : ChainKey) (f : ChainMemory → ChainMemory) :
    (memory.modify key f).chains key = f (memory.chains key) :=
  Function.update_self ..

theorem chains_modify_ne {key k : ChainKey} (h : k ≠ key) (memory : ServerMemory) (f : ChainMemory → ChainMemory) :
    (memory.modify key f).chains k = memory.chains k :=
  Function.update_of_ne h _ _

/-- An access is one step; `forward` is the step at which the call returns. -/
def exec (memory : ServerMemory) (input : Input) : (op : ChainAccess) → Option (op.2.Answer × ServerMemory)
  | (key, .readEntry provider) => some ((memory.chains key).health.state.lookup provider, memory)
  | (key, .lockCursor lb eligible) =>
    let cursor := (memory.chains key).cursor
    some (cursor, memory.modify key fun c => { c with cursor := (lb.nextRoundRobinFiltered cursor eligible).2 })
  | (_, .lockRng) => some (input.rng, memory)
  | (key, .isAvailable provider) => some ((memory.chains key).breaker.isAvailable memory.now provider, memory)
  | (key, .onRequestStart provider) =>
    some ((), memory.modify key fun c => { c with breaker := c.breaker.onRequestStart memory.now provider })
  | (_, .forward provider timeout) =>
    (forwardToProvider (input.upstream provider) timeout).map fun (_, result) => (result, memory)
  | (key, .onSuccess provider) =>
    some ((), memory.modify key fun c => { c with breaker := c.breaker.onSuccess provider })
  | (key, .onFailure provider) =>
    some ((), memory.modify key fun c => { c with breaker := c.breaker.onFailure memory.now provider })
  | (_, .delay _) => some ((), memory)

/-- The tasks of `spawn` probe the providers of the health map. -/
def outside (memory : ServerMemory) : External → Option ServerMemory
  | .tick elapsed => some { memory with now := memory.now + elapsed }
  | .probed key provider client =>
    if (memory.chains key).health.state.entries.any fun e => e.2.provider = provider then
      some (memory.modify key fun c =>
        { c with health := c.health.probed memory.now (JsonRpcHealthProbe.probe client provider) })
    else none

theorem exec_now {memory memory' : ServerMemory} {input : Input} {op : ChainAccess} {a : op.2.Answer}
    (h : exec memory input op = some (a, memory')) : memory'.now = memory.now := by
  obtain ⟨key, access⟩ := op
  cases access with
  | forward provider timeout =>
    obtain ⟨x, -, heq⟩ := Option.map_eq_some_iff.mp h
    exact congrArg now (Prod.mk.inj heq).2.symm
  | readEntry | lockRng | isAvailable | delay => exact congrArg now (Prod.mk.inj (Option.some.inj h)).2.symm
  | lockCursor | onRequestStart | onSuccess | onFailure =>
    rw [← (Prod.mk.inj (Option.some.inj h)).2, now_modify]

theorem outside_now {memory memory' : ServerMemory} {event : External} (h : outside memory event = some memory') :
    memory.now ≤ memory'.now := by
  cases event with
  | tick elapsed =>
    rw [← Option.some.inj h]
    exact Nat.le_add_right _ _
  | probed key provider client =>
    obtain ⟨-, heq⟩ := Option.ite_none_right_eq_some.mp h
    rw [← Option.some.inj heq, now_modify]

end ServerMemory

def ChainRuntime.memory (chain : ChainRuntime) : ChainMemory where
  health := chain.healthService.getD ⟨∅, chain.tolerance⟩
  cursor := 0
  breaker := chain.circuitBreaker

/-- The memory of a new state. A key without a chain has nothing. -/
def ProxyState.memory (state : ProxyState) (now : Instant) : ServerMemory where
  now
  chains key := ((state.chains.lookup key).map ChainRuntime.memory).getD ⟨⟨∅, .balanced⟩, 0, ⟨∅⟩⟩

/-- The accesses with an `await` that can be pending. -/
def Access.suspends : Access → Bool
  | .lockCursor _ _ | .lockRng | .forward _ _ | .delay _ => true
  | _ => false

section
variable (globs : Globs) (decode : String → String) (tower : Tower) (state : ProxyState)

def server : Runtime Tasks.Job ChainAccess (fun op => op.2.Answer) HandlerEnd ServerMemory Input External where
  code := Tasks.proxyHandlerImpl globs decode tower state
  exec := ServerMemory.exec
  suspends op := op.2.suspends
  outside := ServerMemory.outside

end

/-- The memory and the input that an access sees. -/
abbrev Moment : Type := ServerMemory × Input

abbrev Server : Type := World Tasks.Job ChainAccess (fun op => op.2.Answer) HandlerEnd ServerMemory Input

abbrev RequestTask : Type := Task Tasks.Job ChainAccess (fun op => op.2.Answer) HandlerEnd ServerMemory Input

/-- Jobs come from requests that the router and the middleware let through. -/
def Admitted (parse : String → List (String × String)) (json : List UInt8 → Option Json) (state : ProxyState) :
    Server → Action Tasks.Job Input External → Prop
  | _, .spawn _ job => ∃ route req, serveRpc parse json state route req = .handled job.call
  | _, _ => True

end Rpceth
