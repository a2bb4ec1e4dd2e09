import Rpceth.Server.Handler

/-! `proxy-server/src/admin.rs`: the readiness check. It asks the circuit breaker of each chain once for each of its
    providers, while the requests go on; `available` has the answers. The timestamp is an argument. The other
    routes of the file only show what the state holds, and are left out. -/

namespace Rpceth
open Lib

/-- The order in which the `HashSet` of the providers of a chain is iterated. -/
structure SetOrder where
  toList : Finset ProviderId → List ProviderId
  nodup_toList : ∀ s, (toList s).Nodup
  mem_toList : ∀ {s p}, p ∈ toList s ↔ p ∈ s

def ProxyState.chainProviderHandle (state : ProxyState) (providerId : ProviderId) : Option ProviderHandle :=
  state.providersById.lookup providerId

/-- The variables of the loop over the providers of a chain. -/
structure ChainCheck where
  ready : Bool
  issues : List String
  chainProviders : List Json
  availableInChain : Nat
  totalInChain : Nat

/-- The variables of the loop over the chains. -/
structure ReadinessCheck where
  ready : Bool
  providerStatuses : HashMap String Json
  issues : List String

def providerIssue (chainId : String) (providerId : ProviderId) : String :=
  s!"Provider {providerId.text} (chain {chainId}) is not available"

def chainIssue (chainId : String) : String := s!"No providers are available for chain {chainId}"

def providerStatus (provider : ProviderHandle) (providerId : ProviderId) (isAvailable : Bool) : Json :=
  .object [("id", .string providerId.text), ("url", .string provider.url),
    ("timeout_ms", .number (toString (Duration.asMillis provider.timeout))),
    ("weight", .number (toString provider.baseWeight)), ("available", .bool isAvailable)]

def chainStatus (chainId : String) (c : ChainCheck) : Json :=
  .object [("chain", .string chainId), ("available_providers", .number (toString c.availableInChain)),
    ("total_providers", .number (toString c.totalInChain)), ("providers", .array c.chainProviders)]

section
variable (order : SetOrder) (available : ChainKey → ProviderId → Bool) (state : ProxyState)

def checkProvider (key : ChainKey) (c : ChainCheck) (providerId : ProviderId) : ChainCheck :=
  let c := { c with totalInChain := c.totalInChain + 1 }
  match state.chainProviderHandle providerId with
  | none => c
  | some provider =>
    let isAvailable := available key providerId
    let c := if isAvailable then { c with availableInChain := c.availableInChain + 1 } else c
    let c := { c with chainProviders := c.chainProviders ++ [providerStatus provider providerId isAvailable] }
    if !isAvailable then { c with ready := false, issues := c.issues ++ [providerIssue key.text providerId] } else c

def checkChain (r : ReadinessCheck) (entry : ChainKey × ChainRuntime) : ReadinessCheck :=
  let (key, runtime) := entry
  let c := (order.toList runtime.providers).foldl (checkProvider available state key) ⟨r.ready, r.issues, [], 0, 0⟩
  let r := { r with
    ready := c.ready
    issues := c.issues
    providerStatuses := r.providerStatuses.insert key.text (chainStatus key.text c) }
  if c.availableInChain = 0 then { r with ready := false, issues := r.issues ++ [chainIssue key.text] } else r

def readinessCheck : ReadinessCheck := state.chains.pairs.foldl (checkChain order available state) ⟨true, ∅, []⟩

def ReadinessCheck.response (r : ReadinessCheck) (timestamp : String) : Response where
  status := if r.ready then 200 else 503
  headers := [("content-type", "application/json")]
  body := .json (.object [
    ("status", .string (if r.ready then "ready" else "not_ready")), ("timestamp", .string timestamp),
    ("chains", .object r.providerStatuses.pairs), ("issues", .array (r.issues.map .string)),
    ("default_chain", (state.defaultChain.map fun key => Json.string key.text).getD .null)])

def readinessHandler (timestamp : String) : Response :=
  (readinessCheck order available state).response state timestamp

end
end Rpceth
