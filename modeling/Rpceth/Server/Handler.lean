import Rpceth.Lib.Search
import Rpceth.Server.Auth

/-! `proxy-server/src/lib.rs`: provider selection, forwarding and the request loop of `proxy_handler_impl`.

    Everything that other requests, the probes and the upstream nodes can change is read from an
    environment, which may answer every reading differently. `tower` is a parameter. Metrics, logs and
    spans are left out; the trace id is an argument. -/

namespace Rpceth
open Lib

/-! ### Forwarding -/

/-- When and how the head of an upstream response arrives, counted from the call. -/
inductive UpstreamHead where
  | never
  | failed (at_ : Duration) (message : String)
  | arrived (at_ : Duration) (status : StatusCode) (headers : HeaderMap)

/-- When and how the body is complete, counted from the head. -/
inductive UpstreamBody where
  | never
  | failed (after : Duration) (message : String)
  | complete (after : Duration) (data : List UInt8)

structure Exchange where
  head : UpstreamHead
  body : UpstreamBody

structure ProviderResponse where
  status : StatusCode
  headers : HeaderMap
  body : List UInt8

/-- The result and when it is there, or `none` if the call never returns: the timeout is over the head
    of the response only. -/
def forwardToProvider (x : Exchange) (timeout : Duration) : Option (Duration × Except String ProviderResponse) :=
  let timedOut : Option (Duration × Except String ProviderResponse) :=
    some (timeout, .error "provider request timed out")
  match x.head with
  | .never => timedOut
  | .failed at_ message => if at_ ≤ timeout then some (at_, .error message) else timedOut
  | .arrived at_ status headers =>
    if at_ ≤ timeout then
      if !status.isSuccess then some (at_, .error s!"provider returned status {status.display}")
      else match x.body with
        | .never => none
        | .failed after message => some (at_ + after, .error message)
        | .complete after data => some (at_ + after, .ok ⟨status, headers, data⟩)
    else timedOut

/-! ### The environment -/

/-- The answers to the readings of one request, by the number of the reading. -/
structure Env where
  reads : Nat → HealthReads
  cursor : Nat → Nat
  rng : Nat → WeightedIndex
  breaker : Nat → CircuitBreaker
  now : Nat → Instant
  upstream : Nat → ProviderHandle → Exchange

/-- `CircuitBreaker::is_available` at the `n`-th reading. -/
def Env.isAvailable (env : Env) (n : Nat) (provider : ProviderId) : Bool :=
  (env.breaker n).isAvailable (env.now n) provider

/-- `ExponentialBackoffMaker::new` with `make_backoff`, and `next_backoff`, of the `tower` crate. -/
structure Tower where
  Backoff : Type
  make : Duration → Duration → F64 → Option Backoff
  nextBackoff : Backoff → Duration × Backoff

/-- `none` is the panic of `expect`. -/
def makeBackoff (tower : Tower) (policy : ResolvedBackoff) : Option tower.Backoff :=
  tower.make policy.min policy.max policy.jitter

/-! ### Selection -/

section
variable (env : Env)

/-- The load balancer of the chain as the source of candidates for `select_provider`. -/
def balancerSource (chain : ChainRuntime) (policy : MethodPolicy) : Source ProviderId ProviderHandle where
  key := (·.id)
  pool := chain.loadBalancer.pool.ids
  draw n excluded := (chain.loadBalancer.select (env.reads n) (env.cursor n) (env.rng n) excluded (some policy)).1
  mem_pool h := ProviderPool.mem_ids (LoadBalancer.select_eq_some h).1
  fresh h := (LoadBalancer.select_eq_some h).2.1

/-- The loop of `select_provider`: select, check the circuit, exclude and select again. -/
def selectAvailable (chain : ChainRuntime) (policy : MethodPolicy) (excluded : Finset ProviderId) (n : Nat) :
    Option ProviderHandle × Nat :=
  (balancerSource env chain policy).search (fun n provider => env.isAvailable n provider.id) excluded n

/-- The provider, if any, and the number of the next reading. -/
def selectProvider (chain : ChainRuntime) (providersById : HashMap ProviderId ProviderHandle)
    (ctx : RequestContext) (tried : Finset ProviderId) (policy : MethodPolicy) (n : Nat) :
    Option ProviderHandle × Nat :=
  match ctx.providerOverride with
  | none => selectAvailable env chain policy tried n
  | some overrideId =>
    let excluded := insert overrideId tried
    if overrideId ∈ tried then selectAvailable env chain policy excluded n
    else if overrideId ∉ chain.providers then (none, n)
    else match providersById.lookup overrideId with
      | none => selectAvailable env chain policy excluded n
      | some handle =>
        if env.isAvailable n overrideId then (some handle, n + 1)
        else selectAvailable env chain policy excluded (n + 1)

end

/-! ### The request loop -/

/-- What a request does to the world. -/
inductive Event where
  | onRequestStart (provider : ProviderId)
  | forward (provider : ProviderId) (result : Except String ProviderResponse)
  | onSuccess (provider : ProviderId)
  | onFailure (provider : ProviderId)
  | delay (duration : Duration)

structure LoopState (tower : Tower) where
  tried : Finset ProviderId
  lastError : Option String
  backoff : Option tower.Backoff
  /-- The number of the next reading. -/
  reading : Nat

/-- How the loop ends. -/
inductive LoopEnd where
  | success (response : ProviderResponse)
  | exhausted (lastError : Option String)
  /-- A call did not return. -/
  | pending

structure LoopRun where
  trace : List Event
  ending : LoopEnd

section
variable (tower : Tower) (env : Env) (chain : ChainRuntime) (providersById : HashMap ProviderId ProviderHandle)
  (ctx : RequestContext) (policy : MethodPolicy)

/-- The delay after a failed attempt, if one follows in the budget and there is a backoff. -/
def backoffDelay (attempt maxAttempts : Nat) (backoff : Option tower.Backoff) :
    List Event × Option tower.Backoff :=
  if attempt + 1 < maxAttempts then
    match backoff with
    | some b => ([.delay (tower.nextBackoff b).1], some (tower.nextBackoff b).2)
    | none => ([], none)
  else ([], backoff)

/-- `for attempt in 0..max_attempts`, with `remaining` attempts to go. -/
def attempts (maxAttempts : Nat) : Nat → LoopState tower → LoopRun
  | 0, st => ⟨[], .exhausted st.lastError⟩
  | remaining + 1, st =>
    match selectProvider env chain providersById ctx st.tried policy st.reading with
    | (none, _) => ⟨[], .exhausted st.lastError⟩
    | (some provider, n) =>
      let timeout := max provider.timeout policy.timeout
      match forwardToProvider (env.upstream n provider) timeout with
      | none => ⟨[.onRequestStart provider.id], .pending⟩
      | some (_, .ok response) =>
        ⟨[.onRequestStart provider.id, .forward provider.id (.ok response), .onSuccess provider.id],
          .success response⟩
      | some (_, .error message) =>
        let attempt := maxAttempts - (remaining + 1)
        let (delay, backoff) := backoffDelay tower attempt maxAttempts st.backoff
        let rest := attempts maxAttempts remaining
          { tried := insert provider.id st.tried, lastError := some message, backoff, reading := n + 1 }
        ⟨[.onRequestStart provider.id, .forward provider.id (.error message), .onFailure provider.id] ++ delay ++
          rest.trace, rest.ending⟩

/-- The loop with its set-up; `none` is the panic of `make_backoff`. -/
def requestLoop : Option LoopRun :=
  let maxAttempts := max policy.maxRetries 1
  let start (backoff : Option tower.Backoff) : LoopRun :=
    attempts tower env chain providersById ctx policy maxAttempts maxAttempts
      { tried := ∅, lastError := none, backoff, reading := 0 }
  match policy.backoff with
  | none => some (start none)
  | some b => (makeBackoff tower b).map fun backoff => start (some backoff)

end

/-! ### Responses -/

def requestId (request : Json) : Json := (request.get "id").getD .null

def errorPayload (id : Json) (code message : String) : Json :=
  .object [("jsonrpc", .string "2.0"), ("id", id),
    ("error", .object [("code", .number code), ("message", .string message)])]

def buildSuccessResponse (response : ProviderResponse) (traceId : String) : Response where
  status := response.status.code
  headers := [("content-type", "application/json"), ("x-trace-id", traceId)] ++
    ((response.headers.lookup "content-type").map fun value => ("content-type", value)).toList
  body := .bytes response.body

def buildErrorResponse (request : Json) (traceId : String) (lastError : Option String) : Response where
  status := 502
  headers := [("content-type", "application/json"), ("x-trace-id", traceId)]
  body := .json (errorPayload (requestId request) "-32001" (lastError.getD "all providers failed"))

def buildChainErrorResponse (request : Json) (traceId : String) : ChainError → Response
  | .unsupported value =>
    { status := 400
      headers := [("content-type", "application/json"), ("x-trace-id", traceId)]
      body := .json (errorPayload (requestId request) "-32602" s!"unsupported chain: {value}") }

inductive ProxyOutcome where
  | success (response : Response)
  | failure (response : Response)

/-- How `proxy_handler_impl` ends. -/
inductive HandlerEnd where
  | responded (outcome : ProxyOutcome)
  | panicked
  | pending

def respond (request : Json) (traceId : String) : LoopEnd → HandlerEnd
  | .success response => .responded (.success (buildSuccessResponse response traceId))
  | .exhausted lastError => .responded (.failure (buildErrorResponse request traceId lastError))
  | .pending => .pending

def methodName (body : Json) : String := ((body.get "method").bind Json.asStr).getD "<unknown>"

/-- The events and the end of a handled request. -/
def proxyHandlerImpl (globs : Globs) (decode : String → String) (tower : Tower) (env : Env) (state : ProxyState)
    (traceId : String) (call : HandlerCall) : List Event × HandlerEnd :=
  match state.resolveChain decode call.chainId with
  | .error err => ([], .responded (.failure (buildChainErrorResponse call.body traceId err)))
  | .ok chain =>
    let policy := chain.methodRegistry.resolve globs (some (methodName call.body))
    match requestLoop tower env chain state.providersById call.ctx policy with
    | none => ([], .panicked)
    | some run => (run.trace, respond call.body traceId run.ending)

end Rpceth
