import Rpceth.Theorems.ChainRouting

/-! What `validate_chains` accepts. It threads the set of identifiers used so far through the chains, in the
    iteration order of their map, and compares each alias with those of its own chain as well. -/

namespace Rpceth
open Lib

/-- Pairwise distinct, and none of those used before. -/
def Fresh (used : Finset String) (names : List String) : Prop := names.Nodup ∧ ∀ name ∈ names, name ∉ used

theorem fresh_append {used : Finset String} {l l' : List String} :
    Fresh used (l ++ l') ↔ Fresh used l ∧ Fresh (used ∪ l.toFinset) l' := by
  simp only [Fresh, List.nodup_append, List.mem_append, Finset.mem_union, List.mem_toFinset, not_or]
  constructor
  · rintro ⟨⟨hl, hl', hdiff⟩, hfresh⟩
    refine ⟨⟨hl, fun x hx => hfresh x (.inl hx)⟩, hl', fun x hx => ⟨hfresh x (.inr hx), fun hmem => ?_⟩⟩
    exact hdiff x hmem x hx rfl
  · rintro ⟨⟨hl, hfresh⟩, hl', hfresh'⟩
    refine ⟨⟨hl, hl', ?_⟩, ?_⟩
    · rintro x hx y hy rfl
      exact (hfresh' x hy).2 hx
    · rintro x (hx | hx)
      · exact hfresh x hx
      · exact (hfresh' x hx).1

/-- The identifiers of a chain as validation compares them. -/
def normalIdentifiers (entry : String × ChainConfig) : List String :=
  (chainIdentifiers entry.1 entry.2).map normalizeChainAlias

theorem normalizeChainAlias_trim (s : String) : normalizeChainAlias (trim s) = normalizeChainAlias s := by
  rw [normalizeChainAlias, trim_trim, normalizeChainAlias]

section Chains
variable {providerIds : Finset ProviderId} {used used' : Finset String}

/-- A chain is accepted if it is valid and its identifiers are fresh, and these are used from then on. -/
theorem validateChain_iff {entry : String × ChainConfig} :
    validateChain providerIds used entry.1 entry.2 = .ok used' ↔ entry.2.Valid entry.1 providerIds ∧
      Fresh used (normalIdentifiers entry) ∧ used' = used ∪ (normalIdentifiers entry).toFinset := by
  obtain ⟨key, chain⟩ := entry
  have hsplit : Fresh used (normalIdentifiers (key, chain)) ↔ normalizeChainAlias key ∉ used ∧
      Fresh (insert (normalizeChainAlias key) used) (chain.aliases.map normalizeChainAlias) := by
    have happend := @fresh_append used [normalizeChainAlias key] (chain.aliases.map normalizeChainAlias)
    rw [Finset.insert_eq, Finset.union_comm]
    simpa [Fresh, normalIdentifiers, chainIdentifiers] using happend
  have hunion : used ∪ (normalIdentifiers (key, chain)).toFinset = insert (normalizeChainAlias key) used ∪
      (chain.aliases.map normalizeChainAlias).toFinset := by
    rw [Finset.insert_union, ← Finset.union_insert]
    simp [normalIdentifiers, chainIdentifiers]
  rw [validateChain_eq_ok, validateAliases_eq_ok, hsplit, hunion]
  simp only [normalizeChainAlias_trim, Finset.empty_union, Fresh, List.forall_mem_map]
  constructor
  · rintro ⟨hkey, hne, hproviders, hfresh, hblank, hnodup, haliases, hused⟩
    exact ⟨⟨hkey, hne, hproviders, hblank⟩, ⟨hfresh, hnodup, haliases⟩, hused⟩
  · rintro ⟨⟨hkey, hne, hproviders, hblank⟩, ⟨hfresh, hnodup, haliases⟩, hused⟩
    exact ⟨hkey, hne, hproviders, hfresh, hblank, hnodup, haliases, hused⟩

/-- The loop accepts if every chain is valid and all identifiers together are fresh. -/
theorem validateChainList_iff {chains : List (String × ChainConfig)} :
    validateChainList providerIds used chains = .ok () ↔
      (∀ entry ∈ chains, entry.2.Valid entry.1 providerIds) ∧ Fresh used (chains.flatMap normalIdentifiers) := by
  induction chains generalizing used with
  | nil => simp [validateChainList, Fresh]
  | cons entry rest ih =>
    rw [List.forall_mem_cons, List.flatMap_cons, fresh_append]
    rw [validateChainList]
    cases hfirst : validateChain providerIds used entry.1 entry.2 with
    | error e =>
      constructor
      · intro h
        cases h
      · rintro ⟨⟨hvalid, -⟩, hfresh, -⟩
        rw [validateChain_iff.mpr ⟨hvalid, hfresh, rfl⟩] at hfirst
        cases hfirst
    | ok used' =>
      obtain ⟨hvalid, hfresh, rfl⟩ := validateChain_iff.mp hfirst
      refine ih.trans ⟨?_, ?_⟩
      · rintro ⟨hrest, hfresh'⟩
        exact ⟨⟨hvalid, hrest⟩, hfresh, hfresh'⟩
      · rintro ⟨⟨-, hrest⟩, -, hfresh'⟩
        exact ⟨hrest, hfresh'⟩

end Chains

theorem validateChains_iff {config : ProxyConfig} (hne : config.chains.entries ≠ []) :
    validateChains config = .ok () ↔
      (∃ defaultChain, config.defaultChain = some defaultChain ∧ trim defaultChain ≠ "" ∧
        defaultChain ∈ config.chains) ∧
      (∀ entry ∈ config.chains.pairs, entry.2.Valid entry.1 (config.providers.map (·.id)).toFinset) ∧
      Fresh ∅ (config.chains.pairs.flatMap normalIdentifiers) := by
  rw [← validateChainList_iff]
  unfold validateChains
  simp only [List.isEmpty_iff, hne, ↓reduceIte]
  cases config.defaultChain with
  | none => simp
  | some defaultChain => simp [and_assoc]

section Order
variable {config : ProxyConfig} {order : HashMap String ChainConfig}

theorem fresh_of_perm (horder : order.entries.Perm config.chains.entries) :
    Fresh ∅ (order.pairs.flatMap normalIdentifiers) ↔ Fresh ∅ (config.chains.pairs.flatMap normalIdentifiers) := by
  have hpairs : order.pairs.Perm config.chains.pairs := horder.map _
  have hnames := hpairs.flatMap_right normalIdentifiers
  rw [Fresh, Fresh, hnames.nodup_iff]
  simp

theorem validateChains_perm (horder : order.entries.Perm config.chains.entries) :
    validateChains { config with chains := order } = .ok () ↔ validateChains config = .ok () := by
  by_cases hne : config.chains.entries = []
  · have hempty := (HashMap.entries_eq_nil_of_perm horder).mpr hne
    simp [validateChains, hne, hempty]
  · have hne' : order.entries ≠ [] := (HashMap.entries_eq_nil_of_perm horder).not.mpr hne
    have hpairs : order.pairs.Perm config.chains.pairs := horder.map _
    rw [validateChains_iff hne, validateChains_iff hne', fresh_of_perm horder]
    simp [AList.mem_of_perm horder, hpairs.mem_iff]

theorem validate_perm (horder : order.entries.Perm config.chains.entries) (h : validate config = .ok ()) :
    validate { config with chains := order } = .ok () := by
  simp only [validate, check_bind_eq_ok] at h ⊢
  obtain ⟨htimeout, hretries, hkey, hbreaker, hne, hproviders, hmethods, hchains⟩ := h
  exact ⟨htimeout, hretries, hkey, hbreaker, hne, hproviders, hmethods, (validateChains_perm horder).mpr hchains⟩

end Order

/-- The chains section is accepted, in whatever order the chains map is iterated, exactly if the default chain is
    set, not blank and a key of the map, every chain is valid, and the normal forms of all keys and aliases are
    pairwise distinct. -/
theorem validateChains_exact (config : ProxyConfig) (hne : config.chains.entries ≠ [])
    (order : HashMap String ChainConfig) (horder : order.entries.Perm config.chains.entries) :
    validateChains { config with chains := order } = .ok () ↔
      (∃ defaultChain, config.defaultChain = some defaultChain ∧ trim defaultChain ≠ "" ∧
        defaultChain ∈ config.chains) ∧
      (∀ key chain, config.chains.lookup key = some chain → trim key ≠ "" ∧ chain.providers ≠ [] ∧
        (∀ id ∈ chain.providers, ∃ provider ∈ config.providers, provider.id = id) ∧
        ∀ name ∈ chain.aliases, trim name ≠ "") ∧
      ((config.chains.pairs.flatMap fun entry => chainIdentifiers entry.1 entry.2).map fun name =>
        toAsciiLowercase (trim name)).Nodup := by
  have hnames : Fresh ∅ (config.chains.pairs.flatMap normalIdentifiers) ↔
      ((config.chains.pairs.flatMap fun entry => chainIdentifiers entry.1 entry.2).map fun name =>
        toAsciiLowercase (trim name)).Nodup := by
    rw [List.map_flatMap]
    simp only [Fresh, Finset.notMem_empty, not_false_eq_true, implies_true, and_true]
    rfl
  have hvalid : (∀ entry ∈ config.chains.pairs, entry.2.Valid entry.1 (config.providers.map (·.id)).toFinset) ↔
      ∀ key chain, config.chains.lookup key = some chain → trim key ≠ "" ∧ chain.providers ≠ [] ∧
        (∀ id ∈ chain.providers, ∃ provider ∈ config.providers, provider.id = id) ∧
        ∀ name ∈ chain.aliases, trim name ≠ "" := by
    constructor
    · intro h key chain hchain
      obtain ⟨hkey, hnonempty, hproviders, haliases⟩ := h (key, chain) (HashMap.mem_pairs.mpr hchain)
      exact ⟨hkey, hnonempty, fun id hid => by simpa using hproviders id hid, haliases⟩
    · rintro h ⟨key, chain⟩ hentry
      obtain ⟨hkey, hnonempty, hproviders, haliases⟩ := h key chain (HashMap.mem_pairs.mp hentry)
      exact ⟨hkey, hnonempty, fun id hid => by simpa using hproviders id hid, haliases⟩
  rw [validateChains_perm horder, validateChains_iff hne, hnames, hvalid]

/-- Two chains with an alias each are accepted, also in the other order. -/
theorem validateChains_exact_aliased :
    validateChains { aliasedConfig with
      chains := HashMap.collect [("polygon", { providers := [⟨"a"⟩], aliases := ["137"] }),
        ("eth", { providers := [⟨"a"⟩], aliases := ["mainnet"] })] } = .ok () := by
  have hpairs : aliasedConfig.chains.pairs = [("polygon", { providers := [⟨"a"⟩], aliases := ["137"] }),
      ("eth", { providers := [⟨"a"⟩], aliases := ["mainnet"] })] := rfl
  refine (validateChains_exact aliasedConfig (List.cons_ne_nil _ _) _ (List.Perm.swap _ _ _)).mpr
    ⟨⟨"eth", rfl, by decide, by decide⟩, ?_, by decide⟩
  intro key chain hchain
  have hmem := HashMap.mem_pairs.mpr hchain
  rw [hpairs, List.mem_cons, List.mem_singleton] at hmem
  rcases hmem with heq | heq <;> cases heq <;> decide

end Rpceth
