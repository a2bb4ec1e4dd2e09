import Rpceth.Basic

/-! `proxy-core/src/provider.rs`, and what `config.rs` declares before it is used there. -/

namespace Rpceth

inductive ConfigError where
  | missingFile (path : String)
  | readFailed (message : String)
  | deserializeFailed (message : String)
  | validation (message : String)
  deriving DecidableEq, Repr

/-- The result of a check: `Ok(())` or the error. -/
abbrev Checked := Except ConfigError Unit

/-- `if bad { return Err(ConfigError::Validation(message)) }`. -/
def reject (bad : Bool) (message : String) : Checked :=
  if bad then .error (.validation message) else .ok ()

@[simp] theorem reject_eq_ok {bad : Bool} {message : String} : reject bad message = .ok () ↔ bad = false := by
  cases bad <;> simp [reject]

@[simp] theorem check_bind_eq_ok {α : Type} {a : Checked} {b : Except ConfigError α} {x : α} :
    (a >>= fun _ => b) = .ok x ↔ a = .ok () ∧ b = .ok x := by
  cases a <;> simp [bind, Except.bind]

@[simp] theorem forM_eq_ok {α : Type} {f : α → Checked} {l : List α} :
    forM l f = .ok () ↔ ∀ x ∈ l, f x = .ok () := by
  induction l with
  | nil => simp [pure, Except.pure]
  | cons x l ih =>
    rw [List.forM_cons, check_bind_eq_ok, ih]
    simp

structure CircuitBreakerConfig where
  failureThreshold : Option UInt32 := none
  resetTimeoutMs : Option UInt64 := none
  halfOpenProbe : Option UInt32 := none
  deriving DecidableEq, Repr

structure ProviderConfig where
  id : ProviderId
  url : String
  baseWeight : UInt16 := 100
  maxConnections : UInt32 := 32
  timeoutMs : UInt64 := 5000
  circuitBreaker : CircuitBreakerConfig := {}
  deriving DecidableEq, Repr

structure ProviderHandle where
  id : ProviderId
  url : String
  baseWeight : UInt16
  maxConnections : UInt32
  timeout : Duration
  circuitBreaker : CircuitBreakerConfig
  deriving DecidableEq, Repr

namespace ProviderConfig

def validate (p : ProviderConfig) : Checked := do
  reject (!(1 ≤ p.baseWeight && p.baseWeight ≤ 1000))
    s!"provider `{p.id.text}` base_weight must be between 1 and 1000"
  reject (p.maxConnections == 0) s!"provider `{p.id.text}` max_connections must be greater than zero"
  reject (p.timeoutMs == 0) s!"provider `{p.id.text}` timeout_ms must be greater than zero"

def intoHandle (p : ProviderConfig) : ProviderHandle where
  id := p.id
  url := p.url
  baseWeight := p.baseWeight
  maxConnections := p.maxConnections
  timeout := Duration.fromMillis p.timeoutMs
  circuitBreaker := p.circuitBreaker

end ProviderConfig
end Rpceth
