import Mathlib.Data.List.Induction
import Rpceth.Circuit

/-! The state of a circuit as a function of the calls of the breaker: what it counts, when it opens and for
    how long, and that the calls for other providers do not matter. -/

namespace Rpceth
open Lib

inductive CallKind where
  | onRequestStart
  | onSuccess
  | onFailure
  deriving DecidableEq, Repr

/-- A call of the breaker at an instant. -/
structure Call where
  kind : CallKind
  provider : ProviderId
  now : Instant
  deriving DecidableEq, Repr

def Call.is (c : Call) (kind : CallKind) (p : ProviderId) : Bool := c.kind == kind && c.provider == p

namespace InnerState

def call (config : ResolvedCircuitBreaker) (s : InnerState) (c : Call) : InnerState :=
  match c.kind with
  | .onRequestStart => s.onRequestStart c.now
  | .onSuccess => s.onSuccess
  | .onFailure => s.onFailure config c.now

end InnerState

namespace CircuitBreaker

def call (b : CircuitBreaker) (c : Call) : CircuitBreaker :=
  match c.kind with
  | .onRequestStart => b.onRequestStart c.now c.provider
  | .onSuccess => b.onSuccess c.provider
  | .onFailure => b.onFailure c.now c.provider

def replay (b : CircuitBreaker) (calls : List Call) : CircuitBreaker := calls.foldl call b

theorem replay_concat (b : CircuitBreaker) (calls : List Call) (c : Call) :
    b.replay (calls ++ [c]) = (b.replay calls).call c := by
  rw [replay, List.foldl_concat]
  rfl

theorem lookup_call (b : CircuitBreaker) (c : Call) :
    (b.call c).entries.lookup c.provider =
      (b.entries.lookup c.provider).map fun e => { e with state := e.state.call e.config c } := by
  obtain ⟨kind, provider, now⟩ := c
  cases kind <;> exact (lookup_updateState _ _ _ _).trans (if_pos rfl)

theorem lookup_call_ne {c : Call} {p : ProviderId} (h : p ≠ c.provider) (b : CircuitBreaker) :
    (b.call c).entries.lookup p = b.entries.lookup p := by
  obtain ⟨kind, provider, now⟩ := c
  cases kind <;> exact lookup_updateState_ne h _

end CircuitBreaker

/-! ### What the calls so far say about a provider -/

section History
variable {p : ProviderId} {calls : List Call} {c : Call}

/-- The failures of `p` since its last success, or since the start. -/
def failuresSinceSuccess (p : ProviderId) (calls : List Call) : Nat :=
  (calls.reverse.takeWhile fun c => !c.is .onSuccess p).countP (·.is .onFailure p)

/-- The last failure of `p` was at `failed`, and `after` is what followed it. -/
def LastFailure (p : ProviderId) (calls : List Call) (failed : Instant) (after : List Call) : Prop :=
  ∃ before c, calls = before ++ c :: after ∧ c.is .onFailure p = true ∧ c.now = failed ∧
    ∀ d ∈ after, d.is .onFailure p = false

theorem failuresSinceSuccess_success (h : c.is .onSuccess p = true) (calls : List Call) :
    failuresSinceSuccess p (calls ++ [c]) = 0 := by
  simp [failuresSinceSuccess, h]

theorem failuresSinceSuccess_failure (h : c.is .onFailure p = true) (calls : List Call) :
    failuresSinceSuccess p (calls ++ [c]) = failuresSinceSuccess p calls + 1 := by
  have hs : c.is .onSuccess p = false := by
    simp only [Call.is, Bool.and_eq_true, beq_iff_eq] at h
    simp [Call.is, h.1]
  simp [failuresSinceSuccess, hs, h]

theorem failuresSinceSuccess_other (hs : c.is .onSuccess p = false) (hf : c.is .onFailure p = false)
    (calls : List Call) : failuresSinceSuccess p (calls ++ [c]) = failuresSinceSuccess p calls := by
  simp [failuresSinceSuccess, hs, hf]

theorem LastFailure.concat {failed : Instant} {after : List Call} (h : LastFailure p calls failed after)
    (hf : c.is .onFailure p = false) : LastFailure p (calls ++ [c]) failed (after ++ [c]) := by
  obtain ⟨before, d, rfl, hd, hnow, hafter⟩ := h
  refine ⟨before, d, by simp, hd, hnow, fun e he => ?_⟩
  rcases List.mem_append.mp he with he | he
  · exact hafter e he
  · rw [List.mem_singleton.mp he]
    exact hf

theorem lastFailure_concat (hf : c.is .onFailure p = true) (calls : List Call) :
    LastFailure p (calls ++ [c]) c.now [] :=
  ⟨calls, c, rfl, hf, rfl, fun _ hd => absurd hd List.not_mem_nil⟩

/-! ### The state that the history determines -/

/-- What the state of the circuit of `p` says about the calls so far. -/
structure Tracks (config : ResolvedCircuitBreaker) (p : ProviderId) (calls : List Call) (state : InnerState) :
    Prop where
  failures : state.failures.toNat = min (failuresSinceSuccess p calls) (2 ^ 32 - 1)
  closed : (∃ f, state = .closed f) ↔ failuresSinceSuccess p calls < config.failureThreshold.toNat
  retryAt : ∀ f retryAt, state = .opened f retryAt →
    ∃ failed after, LastFailure p calls failed after ∧ retryAt = failed + config.resetTimeout
  reopened : ∀ f n, state = .halfOpen f n →
    ∃ failed after, LastFailure p calls failed after ∧
      ∃ c ∈ after, c.is .onRequestStart p = true ∧ failed + config.resetTimeout ≤ c.now

namespace Tracks
variable {config : ResolvedCircuitBreaker} {state : InnerState}

theorem of_no_failures (hT : 1 ≤ config.failureThreshold) (h : failuresSinceSuccess p calls = 0) :
    Tracks config p calls (.closed 0) := by
  have hpos := UInt32.le_iff_toNat_le.mp hT
  simp only [UInt32.toNat_one] at hpos
  refine ⟨?_, ?_, ?_, ?_⟩
  · rw [h]
    rfl
  · rw [h]
    exact ⟨fun _ => hpos, fun _ => ⟨0, rfl⟩⟩
  · intro f r hst
    cases hst
  · intro f n hst
    cases hst

theorem closed_iff_of_le {n T : Nat} (hopen : ∀ f, state ≠ .closed f) (hle : T ≤ n) :
    (∃ f, state = .closed f) ↔ n < T := by
  constructor
  · rintro ⟨f, hf⟩
    exact absurd hf (hopen f)
  · intro hlt
    omega

theorem threshold_le (h : Tracks config p calls state) (hopen : ∀ f, state ≠ .closed f) :
    config.failureThreshold.toNat ≤ failuresSinceSuccess p calls := by
  refine Nat.le_of_not_lt fun hlt => ?_
  obtain ⟨f, hf⟩ := h.closed.mpr hlt
  exact hopen f hf

theorem unchanged (h : Tracks config p calls state) (hs : c.is .onSuccess p = false)
    (hf : c.is .onFailure p = false) : Tracks config p (calls ++ [c]) state := by
  refine ⟨?_, ?_, fun f r hst => ?_, fun f n hst => ?_⟩
  · rw [failuresSinceSuccess_other hs hf]
    exact h.failures
  · rw [failuresSinceSuccess_other hs hf]
    exact h.closed
  · obtain ⟨failed, after, hlast, heq⟩ := h.retryAt f r hst
    exact ⟨failed, after ++ [c], hlast.concat hf, heq⟩
  · obtain ⟨failed, after, hlast, d, hd, hstart⟩ := h.reopened f n hst
    exact ⟨failed, after ++ [c], hlast.concat hf, d, List.mem_append_left _ hd, hstart⟩

/-- The start that finds the window over comes at least the reset timeout after the last failure. -/
theorem requestStart (h : Tracks config p calls state) (hc : c.is .onRequestStart p = true) :
    Tracks config p (calls ++ [c]) (state.onRequestStart c.now) := by
  have hkind : c.kind = .onRequestStart := beq_iff_eq.mp (Bool.and_eq_true_iff.mp hc).1
  have hs : c.is .onSuccess p = false := by simp [Call.is, hkind]
  have hf : c.is .onFailure p = false := by simp [Call.is, hkind]
  cases state with
  | closed f => exact h.unchanged hs hf
  | opened f r =>
    by_cases hdue : r ≤ c.now
    · rw [InnerState.onRequestStart_due hdue]
      obtain ⟨failed, after, hlast, rfl⟩ := h.retryAt f r rfl
      have hthr := h.threshold_le fun _ hcl => by cases hcl
      rw [← failuresSinceSuccess_other hs hf] at hthr
      refine ⟨?_, closed_iff_of_le (fun _ hcl => by cases hcl) hthr, ?_, ?_⟩
      · rw [failuresSinceSuccess_other hs hf]
        exact h.failures
      · intro f' r' hst
        cases hst
      · intro f' n hst
        exact ⟨failed, after ++ [c], hlast.concat hf, c, by simp, hc, hdue⟩
    · rw [InnerState.onRequestStart_early hdue]
      exact h.unchanged hs hf
  | halfOpen f n =>
    have hun := h.unchanged hs hf
    have hthr := hun.threshold_le fun _ hcl => by cases hcl
    refine ⟨hun.failures, closed_iff_of_le (fun _ hcl => by cases hcl) hthr, ?_, ?_⟩
    · intro f' r hst
      cases hst
    · intro f' n' _
      exact hun.reopened f n rfl

/-- A failure opens the circuit, unless it stays closed below the threshold. -/
theorem failure (h : Tracks config p calls state) (hc : c.is .onFailure p = true) :
    Tracks config p (calls ++ [c]) (state.onFailure config c.now) := by
  have hcount := failuresSinceSuccess_failure hc calls
  have hfail := h.failures
  have hT := config.failureThreshold.toNat_lt
  -- Open again, or for the first time, with one failure more and a new window.
  have opens : ∀ f : UInt32, f.toNat = min (failuresSinceSuccess p calls) (2 ^ 32 - 1) →
      config.failureThreshold.toNat ≤ failuresSinceSuccess p calls + 1 →
      Tracks config p (calls ++ [c]) (.opened (saturatingSucc f) (c.now + config.resetTimeout)) := by
    intro f hf hle
    refine ⟨?_, closed_iff_of_le (fun _ hcl => by cases hcl) (hcount ▸ hle), ?_, ?_⟩
    · rw [hcount, InnerState.failures, toNat_saturatingSucc, hf]
      omega
    · intro f' r hst
      cases hst
      exact ⟨c.now, [], lastFailure_concat hc calls, rfl⟩
    · intro f' n hst
      cases hst
  cases state with
  | closed f =>
    have hsucc := toNat_saturatingSucc f
    simp only [InnerState.failures] at hfail
    simp only [InnerState.onFailure]
    split
    · rename_i hle
      have hlen := UInt32.le_iff_toNat_le.mp hle
      exact opens f hfail (by omega)
    · rename_i hlt
      have hltn := UInt32.lt_iff_toNat_lt.mp (UInt32.not_le.mp hlt)
      refine ⟨?_, ⟨fun _ => ?_, fun _ => ⟨_, rfl⟩⟩, ?_, ?_⟩
      · rw [hcount, InnerState.failures, hsucc, hfail]
        omega
      · rw [hcount]
        omega
      · intro f' r hst
        cases hst
      · intro f' n hst
        cases hst
  | opened f r => exact opens f hfail (Nat.le_succ_of_le (h.threshold_le fun _ hcl => by cases hcl))
  | halfOpen f n => exact opens f hfail (Nat.le_succ_of_le (h.threshold_le fun _ hcl => by cases hcl))

theorem call (h : Tracks config p calls state) (hT : 1 ≤ config.failureThreshold) (hp : c.provider = p) :
    Tracks config p (calls ++ [c]) (state.call config c) := by
  have hkind : c.is c.kind p = true := by simp [Call.is, hp]
  unfold InnerState.call
  split <;> rename_i hk <;> rw [hk] at hkind
  · exact h.requestStart hkind
  · exact of_no_failures hT (failuresSinceSuccess_success hkind calls)
  · exact h.failure hkind

end Tracks

/-! ### A threshold of zero -/

/-- The settings that the circuit goes by: a threshold of zero opens it at the first failure, as one of one does. -/
def ResolvedCircuitBreaker.effective (config : ResolvedCircuitBreaker) : ResolvedCircuitBreaker :=
  { config with failureThreshold := if config.failureThreshold = 0 then 1 else config.failureThreshold }

theorem ResolvedCircuitBreaker.one_le_effective (config : ResolvedCircuitBreaker) :
    1 ≤ config.effective.failureThreshold := by
  unfold effective
  split
  · exact UInt32.le_refl 1
  · rename_i hne
    have hnat : config.failureThreshold.toNat ≠ 0 := fun hzero => hne (UInt32.toNat_inj.mp hzero)
    exact UInt32.le_iff_toNat_le.mpr (Nat.one_le_iff_ne_zero.mpr hnat)

theorem InnerState.call_effective (config : ResolvedCircuitBreaker) (s : InnerState) (c : Call) :
    s.call config.effective c = s.call config c := by
  have hle : ∀ f, config.effective.failureThreshold ≤ saturatingSucc f ↔
      config.failureThreshold ≤ saturatingSucc f := by
    intro f
    have hsucc := toNat_saturatingSucc f
    unfold ResolvedCircuitBreaker.effective
    split
    · rename_i hzero
      simp only [hzero, UInt32.le_iff_toNat_le, UInt32.toNat_one, UInt32.toNat_zero]
      omega
    · rfl
  unfold call
  split
  · rfl
  · rfl
  · cases s with
    | closed f =>
      simp only [onFailure, hle]
      rfl
    | opened f retryAt => rfl
    | halfOpen f attempts => rfl

/-- After any calls, the entry of `p` tracks the history, and it is the one that the calls for `p` alone
    would have made. -/
theorem replay_tracks (handles : List ProviderHandle) (global : CircuitBreakerConfig) (p : ProviderId)
    (e : ProviderCircuit) (he : (CircuitBreaker.new handles global).entries.lookup p = some e)
    (hT : 1 ≤ e.config.failureThreshold) (calls : List Call) :
    ∃ state, ((CircuitBreaker.new handles global).replay calls).entries.lookup p = some ⟨e.config, state⟩ ∧
      Tracks e.config p calls state ∧
      ((CircuitBreaker.new handles global).replay (calls.filter (·.provider == p))).entries.lookup p =
        some ⟨e.config, state⟩ := by
  induction calls using List.reverseRecOn with
  | nil =>
    have hclosed := (CircuitBreaker.lookup_new he).1
    obtain ⟨config, state⟩ := e
    obtain rfl : state = .closed 0 := hclosed
    exact ⟨.closed 0, he, Tracks.of_no_failures hT rfl, he⟩
  | append_singleton calls c ih =>
    obtain ⟨state, hlookup, htracks, halone⟩ := ih
    by_cases hp : c.provider = p
    · subst hp
      refine ⟨state.call e.config c, ?_, htracks.call hT rfl, ?_⟩
      · rw [CircuitBreaker.replay_concat, CircuitBreaker.lookup_call, hlookup]
        rfl
      · rw [List.filter_append, List.filter_singleton, beq_self_eq_true, cond_true,
          CircuitBreaker.replay_concat, CircuitBreaker.lookup_call, halone]
        rfl
    · have hs : c.is .onSuccess p = false := by simp [Call.is, hp]
      have hf : c.is .onFailure p = false := by simp [Call.is, hp]
      refine ⟨state, ?_, htracks.unchanged hs hf, ?_⟩
      · rw [CircuitBreaker.replay_concat, CircuitBreaker.lookup_call_ne (Ne.symm hp), hlookup]
      · rw [List.filter_append, List.filter_singleton, beq_eq_false_iff_ne.mpr hp, cond_false, List.append_nil,
          halone]

/-- A provider with the default settings whose requests fail three times. -/
theorem replay_tracks_three_failures :
    ∃ state, Tracks ⟨3, 30000000000, 1⟩ ⟨"a"⟩
      [⟨.onFailure, ⟨"a"⟩, 1⟩, ⟨.onSuccess, ⟨"b"⟩, 2⟩, ⟨.onFailure, ⟨"a"⟩, 3⟩, ⟨.onFailure, ⟨"a"⟩, 5⟩] state ∧
      state = .opened 3 30000000005 := by
  obtain ⟨state, hlookup, htracks, -⟩ := replay_tracks
    [ProviderConfig.intoHandle { id := ⟨"a"⟩, url := "https://a.example" }] {} ⟨"a"⟩
    ⟨⟨3, 30000000000, 1⟩, .closed 0⟩ (by decide) (by decide)
    [⟨.onFailure, ⟨"a"⟩, 1⟩, ⟨.onSuccess, ⟨"b"⟩, 2⟩, ⟨.onFailure, ⟨"a"⟩, 3⟩, ⟨.onFailure, ⟨"a"⟩, 5⟩]
  refine ⟨state, htracks, ?_⟩
  cases hlookup
  rfl

end History
end Rpceth
