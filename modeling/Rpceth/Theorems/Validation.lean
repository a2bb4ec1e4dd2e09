import Mathlib.Data.Finset.Lattice.Lemmas
import Rpceth.Methods

/-! What an accepted configuration satisfies: one lemma for each validator. -/

namespace Rpceth
open Lib

@[simp] theorem rejectZero_eq_ok {α : Type} [BEq α] [LawfulBEq α] [OfNat α 0] {value : Option α} {message : String} :
    rejectZero value message = .ok () ↔ value ≠ some 0 := by
  simp [rejectZero]

theorem validateMultiplier_eq_ok {label : String} {value : Option F64} :
    validateMultiplier label value = .ok () ↔ ∀ m ∈ value, ∃ q : Rat, m = .fin q ∧ 0 ≤ q ∧ q ≤ 10 := by
  cases value with
  | none => simp [validateMultiplier]
  | some m => simp [validateMultiplier, F64.contains_iff]

/-- What validation makes sure of in a backoff block. -/
structure BackoffConfig.Valid (b : BackoffConfig) : Prop where
  minMs : b.minMs ≠ some 0
  maxMs : b.maxMs ≠ some 0
  ordered : ∀ min ∈ b.minMs, ∀ max ∈ b.maxMs, min ≤ max
  jitter : ∀ j ∈ b.jitter, ∃ q : Rat, j = .fin q ∧ 0 ≤ q ∧ q ≤ 1

theorem validateBackoff_eq_ok {label : String} {block : Option BackoffConfig} :
    validateBackoff label block = .ok () ↔ ∀ b ∈ block, b.Valid := by
  cases block with
  | none => simp [validateBackoff]
  | some b =>
    obtain ⟨minMs, maxMs, jitter⟩ := b
    have hjit : (jitter.any fun j => !F64.contains 0 1 j) = false ↔
        ∀ j ∈ jitter, ∃ q : Rat, j = .fin q ∧ 0 ≤ q ∧ q ≤ 1 := by
      cases jitter <;> simp [F64.contains_iff]
    simp only [validateBackoff, check_bind_eq_ok, rejectZero_eq_ok, reject_eq_ok, hjit, Option.mem_def,
      Option.some.injEq, forall_eq']
    constructor
    · rintro ⟨hmin, hmax, hordered, hjitter⟩
      refine ⟨hmin, hmax, fun min hminMs max hmaxMs => ?_, hjitter⟩
      obtain rfl : minMs = some min := hminMs
      obtain rfl : maxMs = some max := hmaxMs
      exact UInt64.not_lt.mp (of_decide_eq_false hordered)
    · rintro ⟨hmin, hmax, hordered, hjitter⟩
      refine ⟨hmin, hmax, ?_, hjitter⟩
      cases minMs with
      | none => rfl
      | some min =>
        cases maxMs with
        | none => rfl
        | some max => exact decide_eq_false (UInt64.not_lt.mpr (hordered min rfl max rfl))

/-- What validation makes sure of in the settings of the defaults, a group or an override. -/
structure MethodSettings.Valid (cfg : MethodSettings) : Prop where
  timeout : cfg.timeoutMs ≠ some 0
  maxRetries : cfg.maxRetries ≠ some 0
  weightMultiplier : ∀ m ∈ cfg.weightMultiplier, ∃ q : Rat, m = .fin q ∧ 0 ≤ q ∧ q ≤ 10
  backoff : ∀ b ∈ cfg.backoff, b.Valid

theorem validateGroup_eq_ok {group : String} {cfg : MethodGroupConfig} :
    validateGroup group cfg = .ok () ↔ cfg.Valid := by
  simp only [validateGroup, validateTimeout, validateMaxRetries, check_bind_eq_ok, rejectZero_eq_ok,
    validateMultiplier_eq_ok, validateBackoff_eq_ok]
  constructor
  · rintro ⟨htimeout, hretries, hmult, hbackoff⟩
    exact ⟨htimeout, hretries, hmult, hbackoff⟩
  · rintro ⟨htimeout, hretries, hmult, hbackoff⟩
    exact ⟨htimeout, hretries, hmult, hbackoff⟩

theorem validateOverride_eq_ok {groups : HashMap String MethodGroupConfig} {cfg : MethodOverrideConfig} :
    validateOverride groups cfg = .ok () ↔
      trim cfg.pattern ≠ "" ∧ cfg.toMethodSettings.Valid ∧ ∀ group ∈ cfg.group, group ∈ groups := by
  simp only [validateOverride, validateTimeout, validateMaxRetries, check_bind_eq_ok, rejectZero_eq_ok,
    validateMultiplier_eq_ok, validateBackoff_eq_ok, reject_eq_ok, beq_eq_false_iff_ne]
  constructor
  · rintro ⟨hpattern, htimeout, hretries, hmult, hbackoff, hgroups⟩
    refine ⟨hpattern, ⟨htimeout, hretries, hmult, hbackoff⟩, fun group hgroup => ?_⟩
    simpa only [Option.mem_def.mp hgroup, reject_eq_ok, decide_eq_false_iff_not, not_not] using hgroups
  · rintro ⟨hpattern, ⟨htimeout, hretries, hmult, hbackoff⟩, hgroups⟩
    refine ⟨hpattern, htimeout, hretries, hmult, hbackoff, ?_⟩
    cases hgroup : cfg.group with
    | none => rfl
    | some group => simpa only [reject_eq_ok, decide_eq_false_iff_not, not_not] using hgroups group hgroup

/-- What validation makes sure of in the methods section. -/
structure MethodConfig.Valid (methods : MethodConfig) : Prop where
  default : methods.default.Valid
  groups : ∀ name cfg, methods.groups.lookup name = some cfg → cfg.Valid
  overrides : ∀ cfg ∈ methods.overrides, cfg.toMethodSettings.Valid
  group : ∀ cfg ∈ methods.overrides, ∀ group ∈ cfg.group, group ∈ methods.groups

theorem validateMethods_eq_ok {methods : MethodConfig} (h : validateMethods methods = .ok ()) : methods.Valid := by
  simp only [validateMethods, validateTimeout, validateMaxRetries, check_bind_eq_ok, rejectZero_eq_ok,
    validateMultiplier_eq_ok, validateBackoff_eq_ok, forM_eq_ok, validateGroup_eq_ok, validateOverride_eq_ok] at h
  obtain ⟨hbackoff, htimeout, hretries, hmult, hgroups, hoverrides⟩ := h
  refine ⟨⟨htimeout, hretries, hmult, hbackoff⟩, fun name cfg hcfg => ?_, fun cfg hcfg => ?_, fun cfg hcfg => ?_⟩
  · exact hgroups (name, cfg) (HashMap.mem_pairs.mpr hcfg)
  · exact (hoverrides cfg hcfg).2.1
  · exact (hoverrides cfg hcfg).2.2

/-- The loop over the providers accepts valid ones with distinct ids, none of them among those seen. -/
theorem validateProviders_eq_ok {seen : Finset ProviderId} {providers : List ProviderConfig} :
    validateProviders seen providers = .ok () ↔ (∀ p ∈ providers, p.validate = .ok ()) ∧
      (providers.map (·.id)).Nodup ∧ ∀ p ∈ providers, p.id ∉ seen := by
  induction providers generalizing seen with
  | nil => simp [validateProviders]
  | cons p rest ih =>
    simp only [validateProviders, check_bind_eq_ok, reject_eq_ok, decide_eq_false_iff_not, ih, List.forall_mem_cons,
      List.map_cons, List.nodup_cons, List.mem_map, Finset.mem_insert, not_or, not_exists, not_and]
    constructor
    · rintro ⟨hp, hseen, hrest, hnodup, hfresh⟩
      exact ⟨⟨hp, hrest⟩, ⟨fun q hq => (hfresh q hq).1, hnodup⟩, hseen, fun q hq => (hfresh q hq).2⟩
    · rintro ⟨⟨hp, hrest⟩, ⟨hne, hnodup⟩, hseen, hfresh⟩
      exact ⟨hp, hseen, hrest, hnodup, fun q hq => ⟨hne q hq, hfresh q hq⟩⟩

/-- The loop over the aliases accepts what is not blank, not repeated and not used before. -/
theorem validateAliases_eq_ok {chainKey : String} {seen used used' : Finset String} {aliases : List String} :
    validateAliases chainKey seen used aliases = .ok used' ↔
      (∀ name ∈ aliases, trim name ≠ "") ∧ (aliases.map fun name => normalizeChainAlias (trim name)).Nodup ∧
      (∀ name ∈ aliases, normalizeChainAlias (trim name) ∉ seen ∪ used) ∧
      used' = used ∪ (aliases.map fun name => normalizeChainAlias (trim name)).toFinset := by
  induction aliases generalizing seen used with
  | nil =>
    constructor
    · intro h
      cases h
      simp
    · rintro ⟨-, -, -, rfl⟩
      simp [validateAliases]
  | cons name rest ih =>
    simp only [validateAliases, check_bind_eq_ok, reject_eq_ok, beq_eq_false_iff_ne, ih, decide_eq_false_iff_not,
      List.forall_mem_cons, List.map_cons, List.nodup_cons, List.mem_map, List.toFinset_cons, Finset.mem_union,
      Finset.mem_insert, not_or, not_exists, not_and]
    constructor
    · rintro ⟨hblank, hseen, hused, hblanks, hnodup, hfresh, rfl⟩
      refine ⟨⟨hblank, hblanks⟩, ⟨fun other hother heq => ?_, hnodup⟩, ⟨⟨hseen, hused⟩, fun other hother => ?_⟩, ?_⟩
      · exact (hfresh other hother).1.1 heq
      · exact ⟨(hfresh other hother).1.2, (hfresh other hother).2.2⟩
      · rw [Finset.insert_union, Finset.union_insert]
    · rintro ⟨⟨hblank, hblanks⟩, ⟨hne, hnodup⟩, ⟨⟨hseen, hused⟩, hfresh⟩, rfl⟩
      refine ⟨hblank, hseen, hused, hblanks, hnodup, fun other hother => ?_, ?_⟩
      · have hother' := hfresh other hother
        exact ⟨⟨hne other hother, hother'.1⟩, hne other hother, hother'.2⟩
      · rw [Finset.insert_union, Finset.union_insert]

theorem validateChain_eq_ok {providerIds : Finset ProviderId} {used used' : Finset String} {chainKey : String}
    {chain : ChainConfig} :
    validateChain providerIds used chainKey chain = .ok used' ↔
      trim chainKey ≠ "" ∧ chain.providers ≠ [] ∧ (∀ id ∈ chain.providers, id ∈ providerIds) ∧
      normalizeChainAlias (trim chainKey) ∉ used ∧
      validateAliases chainKey ∅ (insert (normalizeChainAlias (trim chainKey)) used) chain.aliases = .ok used' := by
  simp only [validateChain, check_bind_eq_ok, reject_eq_ok, beq_eq_false_iff_ne, List.isEmpty_eq_false_iff,
    forM_eq_ok, decide_eq_false_iff_not, not_not]

theorem validateChainList_mem {providerIds : Finset ProviderId} {used : Finset String}
    {chains : List (String × ChainConfig)} (h : validateChainList providerIds used chains = .ok ())
    {chainKey : String} {chain : ChainConfig} (hmem : (chainKey, chain) ∈ chains) :
    ∃ before after, validateChain providerIds before chainKey chain = .ok after := by
  induction chains generalizing used with
  | nil => cases hmem
  | cons entry rest ih =>
    obtain ⟨key, cfg⟩ := entry
    rw [validateChainList] at h
    cases hfirst : validateChain providerIds used key cfg with
    | error e =>
      rw [hfirst] at h
      cases h
    | ok used' =>
      rw [hfirst] at h
      rcases List.mem_cons.mp hmem with heq | hmem
      · cases heq
        exact ⟨used, used', hfirst⟩
      · exact ih h hmem

/-- What validation makes sure of in a chain. -/
structure ChainConfig.Valid (chain : ChainConfig) (chainKey : String) (providerIds : Finset ProviderId) : Prop where
  key : trim chainKey ≠ ""
  nonempty : chain.providers ≠ []
  providers : ∀ id ∈ chain.providers, id ∈ providerIds
  aliases : ∀ name ∈ chain.aliases, trim name ≠ ""

theorem validateChains_valid {config : ProxyConfig} (h : validateChains config = .ok ()) {chainKey : String}
    {chain : ChainConfig} (hchain : config.chains.lookup chainKey = some chain) :
    chain.Valid chainKey (config.providers.map (·.id)).toFinset := by
  have hmem := HashMap.mem_pairs.mpr hchain
  unfold validateChains at h
  split at h
  · rename_i hempty
    rw [HashMap.pairs, List.isEmpty_iff.mp hempty] at hmem
    cases hmem
  · split at h
    · cases h
    · simp only [check_bind_eq_ok] at h
      obtain ⟨used, used', hok⟩ := validateChainList_mem h.2.2 hmem
      obtain ⟨hkey, hne, hproviders, -, haliases⟩ := validateChain_eq_ok.mp hok
      exact ⟨hkey, hne, hproviders, (validateAliases_eq_ok.mp haliases).1⟩

/-- What validation makes sure of in a whole configuration. -/
structure ProxyConfig.Valid (config : ProxyConfig) : Prop where
  defaultTimeout : config.defaultTimeoutMs ≠ 0
  maxRetries : config.maxRetries ≠ 0
  apiKey : trim config.auth.apiKey ≠ ""
  circuitBreaker : validateCircuitBreaker config.circuitBreaker = .ok ()
  nonempty : config.providers ≠ []
  providers : validateProviders ∅ config.providers = .ok ()
  methods : config.methods.Valid
  chains : validateChains config = .ok ()

theorem validate_eq_ok {config : ProxyConfig} (h : validate config = .ok ()) : config.Valid := by
  simp only [validate, check_bind_eq_ok, reject_eq_ok, beq_eq_false_iff_ne, List.isEmpty_eq_false_iff] at h
  obtain ⟨htimeout, hretries, hkey, hcb, hne, hproviders, hmethods, hchains⟩ := h
  exact ⟨htimeout, hretries, hkey, hcb, hne, hproviders, validateMethods_eq_ok hmethods, hchains⟩

/-- Patterns without wildcards match themselves. -/
def literalGlobs : Globs where
  parseError _ := none
  buildError _ := none
  isMatch pattern method := pattern == method

/-- One provider, no chains, and otherwise the defaults. -/
def smallConfig : ProxyConfig where
  auth := ⟨"secret"⟩
  providers := [{ id := ⟨"a"⟩, url := "https://a.example" }]

example : validate smallConfig = .ok () := by rfl

end Rpceth
