import Mathlib.Data.List.Induction
import Rpceth.Theorems.Validation

/-! The policy of a method as a lookup in layers: the registry merges defaults, groups and overrides when it
    is built, and each field of what it resolves is the first one set in the override that wins, its group
    and the defaults. -/

namespace Rpceth
open Lib

/-! ### The override that wins -/

/-- The last element with `p` is at the last index whose element has `p`. -/
theorem getLast?_filter_range {α : Type} (p : α → Bool) (l : List α) :
    ((List.range l.length).filter fun i => l[i]?.any p).getLast?.bind (fun i => l[i]?) = (l.filter p).getLast? := by
  induction l using List.reverseRecOn with
  | nil => rfl
  | append_singleton l x ih =>
    have hbefore : ((List.range l.length).filter fun i => (l ++ [x])[i]?.any p) =
        (List.range l.length).filter fun i => l[i]?.any p := by
      refine List.filter_congr fun i hi => ?_
      rw [List.getElem?_append_left (List.mem_range.mp hi)]
    have hlast : (l ++ [x])[l.length]? = some x := List.getElem?_concat_length
    rw [List.length_append, List.length_singleton, List.range_succ, List.filter_append, hbefore, List.filter_append,
      List.filter_singleton, List.filter_singleton, hlast, Option.any_some]
    cases p x with
    | true => simp
    | false =>
      simp only [cond_false, List.append_nil]
      rw [← ih]
      cases hj : ((List.range l.length).filter fun i => l[i]?.any p).getLast? with
      | none => rfl
      | some j =>
        have hlt := List.mem_range.mp (List.mem_filter.mp (List.mem_of_getLast? hj)).1
        exact List.getElem?_append_left hlt

/-- The last override whose pattern matches. -/
def winningOverride (g : Globs) (overrides : List MethodOverrideConfig) (method : String) :
    Option MethodOverrideConfig :=
  (overrides.filter fun cfg => g.isMatch cfg.pattern method).getLast?

section Winner
variable {g : Globs} {overrides : List MethodOverrideConfig} {method : String}

theorem winningOverride_eq_some {i : Nat} {cfg : MethodOverrideConfig} (hi : overrides[i]? = some cfg)
    (hmatch : g.isMatch cfg.pattern method = true)
    (hlater : ∀ j later, i < j → overrides[j]? = some later → g.isMatch later.pattern method = false) :
    winningOverride g overrides method = some cfg := by
  obtain ⟨hlt, hget⟩ := List.getElem?_eq_some_iff.mp hi
  have hsplit : overrides = overrides.take i ++ cfg :: overrides.drop (i + 1) := by
    conv => lhs; rw [← List.take_append_drop i overrides]
    rw [List.drop_eq_getElem_cons hlt, hget]
  have hrest : (overrides.drop (i + 1)).filter (fun cfg => g.isMatch cfg.pattern method) = [] := by
    rw [List.filter_eq_nil_iff]
    intro later hmem
    obtain ⟨j, hj⟩ := List.mem_iff_getElem?.mp hmem
    rw [List.getElem?_drop] at hj
    rw [hlater (i + 1 + j) later (by omega) hj]
    exact Bool.false_ne_true
  unfold winningOverride
  rw [hsplit, List.filter_append, List.filter_cons_of_pos (by exact hmatch), hrest, List.getLast?_concat]

theorem winningOverride_eq_none (h : ∀ cfg ∈ overrides, g.isMatch cfg.pattern method = false) :
    winningOverride g overrides method = none := by
  have hnil : overrides.filter (fun cfg => g.isMatch cfg.pattern method) = [] := by
    rw [List.filter_eq_nil_iff]
    intro cfg hcfg
    rw [h cfg hcfg]
    exact Bool.false_ne_true
  rw [winningOverride, hnil]
  rfl

theorem mem_of_winningOverride {cfg : MethodOverrideConfig} (h : winningOverride g overrides method = some cfg) :
    cfg ∈ overrides :=
  (List.mem_filter.mp (List.mem_of_getLast? h)).1

end Winner

/-! ### Layers -/

/-- The settings that decide about a method, in the order of precedence. -/
def MethodConfig.layers (methods : MethodConfig) (winner : Option MethodOverrideConfig) : List MethodSettings :=
  (winner.map (·.toMethodSettings)).toList ++
    ((winner.bind (·.group)).bind fun group => methods.groups.lookup group).toList ++ [methods.default]

/-- Every field of the policy is the first one set in the layers, or a default of the configuration or of
    the program. -/
structure MethodPolicy.Follows (policy : MethodPolicy) (config : ProxyConfig) (layers : List MethodSettings) :
    Prop where
  timeout : policy.timeout = Duration.fromMillis ((layers.findSome? (·.timeoutMs)).getD config.defaultTimeoutMs)
  tolerance : policy.tolerance = (layers.findSome? (·.tolerance)).getD .balanced
  maxRetries : policy.maxRetries = ((layers.findSome? (·.maxRetries)).getD config.maxRetries).toNat
  weightMultiplier : policy.weightMultiplier = (layers.findSome? (·.weightMultiplier)).getD (.fin 1)
  providerWeight : ∀ p, policy.providerWeight p = (layers.findSome? (·.providerWeights.lookup p)).map weightOf
  noBackoff : policy.backoff = none ↔ ∀ layer ∈ layers, layer.backoff = none
  backoff : ∀ b, policy.backoff = some b →
    b.min = Duration.fromMillis ((layers.findSome? fun layer => layer.backoff.bind (·.minMs)).getD 200) ∧
    b.max = Duration.fromMillis ((layers.findSome? fun layer => layer.backoff.bind (·.maxMs)).getD 2000) ∧
    b.jitter = (layers.findSome? fun layer => layer.backoff.bind (·.jitter)).getD (.fin (3 / 10))

section Layers
variable {config : ProxyConfig} {layers : List MethodSettings}

theorem layers_valid (h : config.methods.Valid) {winner : Option MethodOverrideConfig}
    (hwinner : ∀ cfg ∈ winner, cfg ∈ config.methods.overrides) :
    ∀ layer ∈ config.methods.layers winner, layer.Valid := by
  intro layer hlayer
  unfold MethodConfig.layers at hlayer
  rcases List.mem_append.mp hlayer with hlayer | hlayer
  · rcases List.mem_append.mp hlayer with hlayer | hlayer
    · obtain ⟨cfg, hcfg, rfl⟩ := Option.map_eq_some_iff.mp (Option.mem_toList.mp hlayer)
      exact h.overrides cfg (hwinner cfg hcfg)
    · obtain ⟨name, -, hgroup⟩ := Option.bind_eq_some_iff.mp (Option.mem_toList.mp hlayer)
      exact h.groups name layer hgroup
  · rw [List.mem_singleton.mp hlayer]
    exact h.default

/-- A field of the layer over the others, or else what was looked up in them. -/
theorem getD_findSome? {α : Type} {f : MethodSettings → Option α} {base d : α}
    (h : base = (layers.findSome? f).getD d) (cfg : MethodSettings) :
    (f cfg).getD base = ((cfg :: layers).findSome? f).getD d := by
  rw [List.findSome?_cons, h]
  cases f cfg <;> rfl

theorem getD_map_findSome? {α β : Type} {f : MethodSettings → Option α} (g : α → β) {base : β} {d : α}
    (h : base = g ((layers.findSome? f).getD d)) (cfg : MethodSettings) :
    ((f cfg).map g).getD base = g (((cfg :: layers).findSome? f).getD d) := by
  rw [List.findSome?_cons, h]
  cases f cfg <;> rfl

/-- The backoff of a policy as far as it is set, with the last resort where it is not. -/
theorem base_backoff {policy : MethodPolicy} (h : policy.Follows config layers) :
    policy.backoff.getD .builtin =
      ⟨Duration.fromMillis ((layers.findSome? fun layer => layer.backoff.bind (·.minMs)).getD 200),
        Duration.fromMillis ((layers.findSome? fun layer => layer.backoff.bind (·.maxMs)).getD 2000),
        (layers.findSome? fun layer => layer.backoff.bind (·.jitter)).getD (.fin (3 / 10))⟩ := by
  cases hb : policy.backoff with
  | some b =>
    obtain ⟨hmin, hmax, hjitter⟩ := h.backoff b hb
    rw [← hmin, ← hmax, ← hjitter]
    rfl
  | none =>
    have hnone := h.noBackoff.mp hb
    have hfield : ∀ {α : Type} (f : BackoffConfig → Option α),
        (layers.findSome? fun layer => layer.backoff.bind f) = none := by
      intro α f
      rw [List.findSome?_eq_none_iff]
      intro layer hlayer
      rw [hnone layer hlayer]
      rfl
    rw [hfield, hfield, hfield]
    rfl

theorem resolveDefaults_follows (defaults : MethodDefaults) (config : ProxyConfig) :
    (resolveDefaults defaults config).Follows config [defaults] where
  timeout := by
    rw [List.findSome?_singleton]
    exact Option.getD_map ..
  tolerance := by
    rw [List.findSome?_singleton]
    rfl
  maxRetries := by
    rw [List.findSome?_singleton]
    rfl
  weightMultiplier := by
    rw [List.findSome?_singleton]
    rfl
  providerWeight p := by
    rw [List.findSome?_singleton]
    exact HashMap.lookup_collect_pairs (fun _ weight => weightOf weight) defaults.providerWeights p
  noBackoff := by simp [resolveDefaults]
  backoff b hb := by
    obtain ⟨block, hblock, rfl⟩ := Option.map_eq_some_iff.mp hb
    simp only [List.findSome?_singleton, hblock, Option.bind_some]
    exact ⟨Option.getD_map .., Option.getD_map .., rfl⟩

/-- Settings over a policy are one layer more. -/
theorem overlay_follows {base : MethodPolicy} (h : base.Follows config layers) (cfg : MethodSettings) :
    (overlay base cfg).Follows config (cfg :: layers) where
  timeout := getD_map_findSome? Duration.fromMillis h.timeout cfg
  tolerance := getD_findSome? h.tolerance cfg
  maxRetries := getD_map_findSome? UInt8.toNat h.maxRetries cfg
  weightMultiplier := getD_findSome? h.weightMultiplier cfg
  providerWeight p := by
    have hmerge := HashMap.lookup_insertAll_pairs (fun _ weight => weightOf weight) base.providerWeights
      cfg.providerWeights p
    have hbase := h.providerWeight p
    rw [MethodPolicy.providerWeight] at hbase ⊢
    rw [List.findSome?_cons]
    refine hmerge.trans ?_
    rw [hbase]
    cases cfg.providerWeights.lookup p <;> rfl
  noBackoff := by
    have hbase := h.noBackoff
    simp only [overlay, List.forall_mem_cons, Option.or_eq_none_iff, Option.map_eq_none_iff, hbase]
  backoff b hb := by
    have hfields := base_backoff h
    simp only [overlay, Option.or_eq_some_iff, Option.map_eq_some_iff, Option.map_eq_none_iff] at hb
    rcases hb with ⟨block, hblock, rfl⟩ | ⟨hblock, hb⟩
    -- The block over the base, field by field.
    · simp only [List.findSome?_cons, hblock, Option.bind_some, resolveBackoff, hfields]
      obtain ⟨minMs, maxMs, jitter⟩ := block
      refine ⟨?_, ?_, ?_⟩
      · cases minMs <;> rfl
      · cases maxMs <;> rfl
      · cases jitter <;> rfl
    -- Without a block the layer is passed over.
    · simp only [List.findSome?_cons, hblock, Option.bind_none]
      exact h.backoff b hb

end Layers

/-! ### The registry -/

section Registry
variable {g : Globs} {config : ProxyConfig} {registry : MethodRegistry}

theorem lookup_buildGroupPolicies (groups : HashMap String MethodGroupConfig) (defaults : ResolvedDefaults)
    (name : String) :
    (buildGroupPolicies groups defaults).lookup name = (groups.lookup name).map (overlay defaults) :=
  HashMap.lookup_collect_pairs (fun _ cfg => overlay defaults cfg) groups name

/-- The policy of an override when the registry is built. -/
def overridePolicy (config : ProxyConfig) (cfg : MethodOverrideConfig) : MethodPolicy :=
  let defaults := resolveDefaults config.methods.default config
  let groups := buildGroupPolicies config.methods.groups defaults
  overlay ((cfg.group.bind fun group => groups.lookup group).getD defaults) cfg.toMethodSettings

theorem overridePolicy_follows (config : ProxyConfig) (cfg : MethodOverrideConfig) :
    (overridePolicy config cfg).Follows config (config.methods.layers (some cfg)) := by
  have hdefaults := resolveDefaults_follows config.methods.default config
  refine overlay_follows ?_ cfg.toMethodSettings
  cases hgroup : cfg.group with
  | none =>
    simp only [Option.bind_some, hgroup, Option.bind_none]
    exact hdefaults
  | some name =>
    simp only [Option.bind_some, hgroup, lookup_buildGroupPolicies]
    cases hcfg : config.methods.groups.lookup name with
    | none => exact hdefaults
    | some groupCfg => exact overlay_follows hdefaults groupCfg

theorem overrideSet_new {overrides : List ResolvedOverride} {set : OverrideSet}
    (h : OverrideSet.new g overrides = .ok set) :
    set.globset = overrides.map (·.pattern) ∧ set.entries = overrides.map fun o => ⟨o.pattern, o.policy⟩ := by
  unfold OverrideSet.new at h
  simp only at h
  split at h
  · cases h
  · split at h
    · cases h
    · cases h
      exact ⟨rfl, rfl⟩

/-- The pattern set and the entries have the same indices, so the last match is the last entry whose
    pattern matches. -/
theorem overrideSet_matches {overrides : List MethodOverrideConfig} {policyOf : MethodOverrideConfig → MethodPolicy}
    {set : OverrideSet} (hglobset : set.globset = overrides.map (·.pattern))
    (hentries : set.entries = overrides.map fun cfg => ⟨cfg.pattern, policyOf cfg⟩) (method : String) :
    set.matches g method = (winningOverride g overrides method).map policyOf := by
  have hindices : g.matches set.globset method =
      (List.range overrides.length).filter fun i => overrides[i]?.any fun cfg => g.isMatch cfg.pattern method := by
    rw [Globs.matches, hglobset, List.length_map]
    refine List.filter_congr fun i _ => ?_
    rw [List.getElem?_map, Option.any_map]
  have hentry : ∀ i : Nat, (set.entries[i]?).map (·.policy) = (overrides[i]?).map policyOf := by
    intro i
    rw [hentries, List.getElem?_map, Option.map_map]
    rfl
  have hbody : ((g.matches set.globset method).getLast?.bind fun i => set.entries[i]?).map (·.policy) =
      (winningOverride g overrides method).map policyOf := by
    have hlast := getLast?_filter_range (fun cfg => g.isMatch cfg.pattern method) overrides
    rw [winningOverride, ← hlast, hindices, Option.map_bind, Option.map_bind]
    congr 1
    funext i
    exact hentry i
  unfold OverrideSet.matches
  split
  · rename_i hempty
    rw [hentries, List.isEmpty_iff, List.map_eq_nil_iff] at hempty
    rw [hempty]
    rfl
  · exact hbody

/-- What the registry answers: the policy of the override that wins, or the defaults. -/
theorem resolve_eq (hreg : MethodRegistry.new g config = .ok registry) (method : String) :
    registry.resolve g (some method) =
      ((winningOverride g config.methods.overrides method).map (overridePolicy config)).getD
        (resolveDefaults config.methods.default config) := by
  unfold MethodRegistry.new at hreg
  simp only at hreg
  split at hreg
  · cases hreg
  · rename_i set hset
    cases hreg
    obtain ⟨hglobset, hentries⟩ := overrideSet_new hset
    rw [buildOverridePolicies, List.map_map] at hglobset hentries
    have hmatches := overrideSet_matches (g := g) hglobset hentries method
    unfold MethodRegistry.resolve
    simp only [Option.getD_some, hmatches]
    cases winningOverride g config.methods.overrides method <;> rfl

theorem resolve_follows (hreg : MethodRegistry.new g config = .ok registry) (method : String) :
    (registry.resolve g (some method)).Follows config
      (config.methods.layers (winningOverride g config.methods.overrides method)) := by
  rw [resolve_eq hreg]
  cases winningOverride g config.methods.overrides method with
  | none => exact resolveDefaults_follows config.methods.default config
  | some cfg => exact overridePolicy_follows config cfg

/-- The policy of a method is looked up in the override with the largest matching index, its group and the
    defaults, or in the defaults alone if no override matches. -/
theorem resolve_layered (g : Globs) (config : ProxyConfig) (registry : MethodRegistry)
    (hreg : MethodRegistry.new g config = .ok registry) (method : String) :
    (∀ (i : Nat) (cfg : MethodOverrideConfig), config.methods.overrides[i]? = some cfg →
      g.isMatch cfg.pattern method = true →
      (∀ (j : Nat) (later : MethodOverrideConfig), i < j → config.methods.overrides[j]? = some later →
        g.isMatch later.pattern method = false) →
      (registry.resolve g (some method)).Follows config (config.methods.layers (some cfg))) ∧
    ((∀ cfg ∈ config.methods.overrides, g.isMatch cfg.pattern method = false) →
      (registry.resolve g (some method)).Follows config (config.methods.layers none)) := by
  have h := resolve_follows hreg method
  constructor
  · intro i cfg hi hmatch hlater
    rw [winningOverride_eq_some hi hmatch hlater] at h
    exact h
  · intro hnone
    rw [winningOverride_eq_none hnone] at h
    exact h

/-- A group and an override that each set a part of the backoff. -/
def layeredConfig : ProxyConfig :=
  { smallConfig with
    methods :=
      { default := { timeoutMs := some 1000, backoff := some { jitter := some (.fin 0) } }
        groups := HashMap.collect [("reads", { maxRetries := some 5, backoff := some { maxMs := some 700 } })]
        overrides := [
          { pattern := "eth_call", maxRetries := some 9 },
          { pattern := "eth_call", group := some "reads", backoff := some { minMs := some 50 } }] } }

/-- The second override wins, and nothing of the first one is left. -/
theorem resolve_layered_eth_call :
    ∃ registry, MethodRegistry.new literalGlobs layeredConfig = .ok registry ∧
      (registry.resolve literalGlobs (some "eth_call")).maxRetries = 5 ∧
      (registry.resolve literalGlobs (some "eth_call")).Follows layeredConfig
        [{ backoff := some { minMs := some 50 } }, { maxRetries := some 5, backoff := some { maxMs := some 700 } },
          { timeoutMs := some 1000, backoff := some { jitter := some (.fin 0) } }] := by
  refine ⟨_, rfl, by decide, ?_⟩
  refine (resolve_layered literalGlobs layeredConfig _ rfl "eth_call").1 1 _ rfl (by decide) ?_
  intro j later hj hlater
  have hlt : j < 2 := (List.getElem?_eq_some_iff.mp hlater).1
  omega

end Registry
end Rpceth
