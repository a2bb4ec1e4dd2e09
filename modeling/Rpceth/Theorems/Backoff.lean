import Rpceth.Theorems.MethodPolicies

/-! Which backoffs `make_backoff` gets. Every block is validated on its own, and the registry merges the blocks
    field by field. -/

namespace Rpceth
open Lib

/-- A backoff that `ExponentialBackoffMaker::new` takes. -/
structure ResolvedBackoff.Sound (b : ResolvedBackoff) : Prop where
  ordered : b.min ≤ b.max
  max : 0 < b.max
  jitter : ∃ q : Rat, b.jitter = .fin q ∧ 0 ≤ q ∧ q ≤ 1

/-- `min_ms` of the first layer whose backoff sets one. -/
def firstMinMs (layers : List MethodSettings) : UInt64 :=
  (layers.findSome? fun layer => layer.backoff.bind (·.minMs)).getD 200

def firstMaxMs (layers : List MethodSettings) : UInt64 :=
  (layers.findSome? fun layer => layer.backoff.bind (·.maxMs)).getD 2000

/-- The bounds are in order across the layers, or there is no backoff. -/
def BackoffOrdered (layers : List MethodSettings) : Prop :=
  (∃ layer ∈ layers, layer.backoff.isSome = true) → firstMinMs layers ≤ firstMaxMs layers

section Backoff
variable {config : ProxyConfig} {layers : List MethodSettings} {policy : MethodPolicy}

theorem firstMaxMs_ne_zero (h : ∀ layer ∈ layers, layer.Valid) : firstMaxMs layers ≠ 0 := by
  unfold firstMaxMs
  cases hfirst : layers.findSome? fun layer => layer.backoff.bind (·.maxMs) with
  | none =>
    intro hzero
    cases hzero
  | some max =>
    obtain ⟨layer, hlayer, hmax⟩ := List.exists_of_findSome?_eq_some hfirst
    obtain ⟨block, hblock, hmax⟩ := Option.bind_eq_some_iff.mp hmax
    intro hzero
    obtain rfl : max = 0 := hzero
    exact ((h layer hlayer).backoff block hblock).maxMs hmax

theorem first_jitter (h : ∀ layer ∈ layers, layer.Valid) :
    ∃ q : Rat, (layers.findSome? fun layer => layer.backoff.bind (·.jitter)).getD (.fin (3 / 10)) = .fin q ∧
      0 ≤ q ∧ q ≤ 1 := by
  cases hfirst : layers.findSome? fun layer => layer.backoff.bind (·.jitter) with
  | none => exact ⟨3 / 10, rfl, by norm_num, by norm_num⟩
  | some jitter =>
    obtain ⟨layer, hlayer, hjitter⟩ := List.exists_of_findSome?_eq_some hfirst
    obtain ⟨block, hblock, hjitter⟩ := Option.bind_eq_some_iff.mp hjitter
    exact ((h layer hlayer).backoff block hblock).jitter jitter hjitter

/-- A policy that follows valid layers has a sound backoff exactly if their bounds are in order. -/
theorem MethodPolicy.Follows.sound_iff (h : policy.Follows config layers) (hvalid : ∀ layer ∈ layers, layer.Valid) :
    (∀ b, policy.backoff = some b → b.Sound) ↔ BackoffOrdered layers := by
  constructor
  · rintro hsound ⟨layer, hlayer, hblock⟩
    cases hb : policy.backoff with
    | none =>
      rw [h.noBackoff.mp hb layer hlayer] at hblock
      cases hblock
    | some b =>
      obtain ⟨hmin, hmax, -⟩ := h.backoff b hb
      have hle := (hsound b hb).ordered
      rw [hmin, hmax] at hle
      exact Duration.fromMillis_le.mp hle
  · intro hordered b hb
    obtain ⟨hmin, hmax, hjitter⟩ := h.backoff b hb
    have hset : ∃ layer ∈ layers, layer.backoff.isSome = true := by
      by_contra hnone
      have hall : ∀ layer ∈ layers, layer.backoff = none := by
        intro layer hlayer
        cases hblock : layer.backoff with
        | none => rfl
        | some block => exact absurd ⟨layer, hlayer, by rw [hblock]; rfl⟩ hnone
      rw [h.noBackoff.mpr hall] at hb
      cases hb
    refine ⟨?_, ?_, ?_⟩
    · rw [hmin, hmax]
      exact Duration.fromMillis_le.mpr (hordered hset)
    · rw [hmax]
      exact Duration.fromMillis_pos.mpr (firstMaxMs_ne_zero hvalid)
    · rw [hjitter]
      exact first_jitter hvalid

end Backoff

/-- With an accepted configuration the backoff of a method is sound exactly if, in the override that wins,
    its group and the defaults, the first `min_ms` is at most the first `max_ms`. -/
theorem backoff_sound_iff (g : Globs) (config : ProxyConfig) (registry : MethodRegistry)
    (hvalid : validate config = .ok ()) (hreg : MethodRegistry.new g config = .ok registry) (method : String) :
    (∀ b, (registry.resolve g (some method)).backoff = some b → b.Sound) ↔
      BackoffOrdered (config.methods.layers (winningOverride g config.methods.overrides method)) := by
  refine (resolve_follows hreg method).sound_iff (layers_valid (validate_eq_ok hvalid).methods ?_)
  intro cfg hcfg
  exact mem_of_winningOverride hcfg

/-- A block that sets `min_ms` above the `max_ms` that it inherits. -/
def halfBackoffConfig : ProxyConfig :=
  { smallConfig with
    methods := { overrides := [{ pattern := "eth_call", backoff := some { minMs := some 5000 } }] } }

theorem not_always_sound :
    ¬∀ g config registry method b, validate config = .ok () → MethodRegistry.new g config = .ok registry →
      (registry.resolve g (some method)).backoff = some b → b.Sound := by
  intro h
  have hsound := (h literalGlobs halfBackoffConfig _ "eth_call" _ rfl rfl rfl).ordered
  exact absurd hsound (by decide)

/-- With `max_ms` in the group the same block is sound. -/
theorem backoff_sound_layered :
    ∃ registry b, MethodRegistry.new literalGlobs layeredConfig = .ok registry ∧
      (registry.resolve literalGlobs (some "eth_call")).backoff = some b ∧ b.Sound := by
  refine ⟨_, _, rfl, rfl, ?_⟩
  refine (backoff_sound_iff literalGlobs layeredConfig _ rfl rfl "eth_call").mpr ?_ _ rfl
  intro _
  decide

end Rpceth
