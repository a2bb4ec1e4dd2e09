import Rpceth.Theorems.Failover
import Rpceth.Theorems.TaskAttempts

/-! The tasks refine the sequential model: whatever the other tasks do in between, a request runs as in
    `Server/Handler.lean`, in an environment made of what the memory of its chain was at its accesses. -/

namespace Rpceth
open Lib Program

/-! ### Accesses -/

section Accesses
variable {β : Type} {key : ChainKey} {log : AccessLog} {b : β}

/-- An access that always answers comes first in the log. -/
theorem leads_ask_iff {a : Access} {g : Moment → a.Answer} (hg : ∀ m, answer m (key, a) = some (g m))
    {f : a.Answer → ChainTask β} :
    Leads answer ((Tasks.ask key a).bind f) log (.done b) ↔
      ∃ m rest, log = (m, key, a) :: rest ∧ Leads answer (f (g m)) rest (.done b) := by
  refine leads_call_done_iff.trans ⟨?_, ?_⟩
  · rintro ⟨m, x, rest, rfl, hx, hrest⟩
    obtain rfl := Option.some.inj ((hg m).symm.trans hx)
    exact ⟨m, rest, rfl, hrest⟩
  · rintro ⟨m, rest, rfl, hrest⟩
    exact ⟨m, g m, rest, rfl, hg m, hrest⟩

theorem leads_readEntry_iff {p : ProviderId} {f : Entry → ChainTask β} :
    Leads answer ((Tasks.readEntry key p).bind f) log (.done b) ↔
      ∃ m rest, log = (m, key, .readEntry p) :: rest ∧
        Leads answer (f (p, (m.1.chains key).health.state.lookup p)) rest (.done b) :=
  leads_ask_iff fun _ => rfl

theorem leads_lockCursor_iff {lb : LoadBalancer} {eligible : List ProviderHandle} {f : Nat → ChainTask β} :
    Leads answer ((Tasks.lockCursor key lb eligible).bind f) log (.done b) ↔
      ∃ m rest, log = (m, key, .lockCursor lb eligible) :: rest ∧
        Leads answer (f (m.1.chains key).cursor) rest (.done b) :=
  leads_ask_iff fun _ => rfl

theorem leads_lockRng_iff {f : WeightedIndex → ChainTask β} :
    Leads answer ((Tasks.lockRng key).bind f) log (.done b) ↔
      ∃ m rest, log = (m, key, .lockRng) :: rest ∧ Leads answer (f m.2.rng) rest (.done b) :=
  leads_ask_iff fun _ => rfl

theorem leads_isAvailable_iff {p : ProviderId} {f : Bool → ChainTask β} :
    Leads answer ((Tasks.isAvailable key p).bind f) log (.done b) ↔
      ∃ m rest, log = (m, key, .isAvailable p) :: rest ∧
        Leads answer (f ((m.1.chains key).breaker.isAvailable m.1.now p)) rest (.done b) :=
  leads_ask_iff fun _ => rfl

theorem leads_onRequestStart_iff {p : ProviderId} {f : Unit → ChainTask β} :
    Leads answer ((Tasks.onRequestStart key p).bind f) log (.done b) ↔
      ∃ m rest, log = (m, key, .onRequestStart p) :: rest ∧ Leads answer (f ()) rest (.done b) :=
  leads_ask_iff fun _ => rfl

theorem leads_onSuccess_iff {p : ProviderId} {f : Unit → ChainTask β} :
    Leads answer ((Tasks.onSuccess key p).bind f) log (.done b) ↔
      ∃ m rest, log = (m, key, .onSuccess p) :: rest ∧ Leads answer (f ()) rest (.done b) :=
  leads_ask_iff fun _ => rfl

theorem leads_onFailure_iff {p : ProviderId} {f : Unit → ChainTask β} :
    Leads answer ((Tasks.onFailure key p).bind f) log (.done b) ↔
      ∃ m rest, log = (m, key, .onFailure p) :: rest ∧ Leads answer (f ()) rest (.done b) :=
  leads_ask_iff fun _ => rfl

theorem leads_delay_iff {d : Duration} {f : Unit → ChainTask β} :
    Leads answer ((Tasks.delay key d).bind f) log (.done b) ↔
      ∃ m rest, log = (m, key, .delay d) :: rest ∧ Leads answer (f ()) rest (.done b) :=
  leads_ask_iff fun _ => rfl

/-- A call of a provider is in the log when it has returned. -/
theorem leads_forward_iff {h : ProviderHandle} {timeout : Duration}
    {f : Except String ProviderResponse → ChainTask β} :
    Leads answer ((Tasks.forwardToProvider key h timeout).bind f) log (.done b) ↔
      ∃ m t result rest, log = (m, key, .forward h timeout) :: rest ∧
        forwardToProvider (m.2.upstream h) timeout = some (t, result) ∧ Leads answer (f result) rest (.done b) := by
  have hanswer : ∀ m, answer m (key, .forward h timeout) =
      (forwardToProvider (m.2.upstream h) timeout).map Prod.snd := by
    intro m
    exact Option.map_map ..
  refine leads_call_done_iff.trans ⟨?_, ?_⟩
  · rintro ⟨m, x, rest, rfl, hx, hrest⟩
    obtain ⟨⟨t, result⟩, hforward, rfl⟩ := Option.map_eq_some_iff.mp ((hanswer m).symm.trans hx)
    exact ⟨m, t, result, rest, rfl, hforward, hrest⟩
  · rintro ⟨m, t, result, rest, rfl, hforward, hrest⟩
    refine ⟨m, result, rest, rfl, (hanswer m).trans ?_, hrest⟩
    rw [hforward]
    rfl

end Accesses

/-! ### Selection -/

section Selection
variable {key : ChainKey} {lb : LoadBalancer} {policy : Option MethodPolicy} {exclude : Finset ProviderId}
  {log : AccessLog}

theorem readEntries_refines {ids : List ProviderId} {entries : List Entry}
    (h : Leads answer (forEach (Tasks.readEntry key) ids) log (.done entries)) :
    entries.map Prod.fst = ids ∧
      (∀ e ∈ entries, ∃ m ∈ log.map Prod.fst, e.2 = (m.1.chains key).health.state.lookup e.1) ∧ events log = [] := by
  induction ids generalizing log entries with
  | nil =>
    obtain ⟨rfl, heq⟩ := leads_done_iff.mp h
    cases heq
    exact ⟨rfl, fun _ he => absurd he List.not_mem_nil, rfl⟩
  | cons p ids ih =>
    obtain ⟨m, rest, rfl, hrest⟩ := leads_readEntry_iff.mp h
    obtain ⟨later, first, second, rfl, hfirst, hsecond⟩ := leads_bind_done_iff.mp hrest
    obtain ⟨rfl, heq⟩ := leads_done_iff.mp hsecond
    cases heq
    obtain ⟨hids, hread, hsilent⟩ := ih hfirst
    rw [List.append_nil]
    refine ⟨by rw [List.map_cons, hids], fun e he => ?_, hsilent⟩
    rcases List.mem_cons.mp he with rfl | he
    · exact ⟨m, List.mem_cons_self, rfl⟩
    · obtain ⟨m', hm', heq⟩ := hread e he
      exact ⟨m', List.mem_cons_of_mem _ hm', heq⟩

/-- An iteration sees every entry as it was at some moment, each one at its own. -/
theorem readHealth_refines {health : HealthService} {states : HealthStates}
    (h : Leads answer (Tasks.readHealth key health) log (.done states)) :
    HealthStates.From key health.state.keys.toFinset (log.map Prod.fst) states ∧ events log = [] := by
  obtain ⟨entries, first, second, rfl, hfirst, hsecond⟩ := leads_bind_done_iff.mp h
  obtain ⟨rfl, heq⟩ := leads_done_iff.mp hsecond
  cases heq
  obtain ⟨hids, hread, hsilent⟩ := readEntries_refines hfirst
  rw [List.append_nil]
  refine ⟨fun p => ?_, hsilent⟩
  by_cases hp : p ∈ entries.map Prod.fst
  · obtain ⟨e, he, rfl⟩ := List.mem_map.mp hp
    obtain ⟨m, hm, heq⟩ := hread e he
    exact .inl ⟨m, hm, (lookup_collectEntries (hids ▸ health.state.keys_nodup) he).trans heq⟩
  · exact .inr ⟨fun hin => hp (hids ▸ List.mem_toFinset.mp hin), lookup_collectEntries_of_notMem hp⟩

theorem healthFilter_refines {filter : HealthFilter}
    (h : Leads answer (Tasks.healthFilter key lb policy) log (.done filter)) (m : Moment) :
    ∃ r : Reading, r.From key lb.healthIds (m :: log.map Prod.fst) ∧ lb.healthFilter r.reads policy = filter ∧
      events log = [] := by
  have hm : ∀ {l : List Moment}, m ∈ m :: l := List.mem_cons_self
  unfold Tasks.healthFilter at h
  unfold LoadBalancer.healthFilter
  cases hhealth : lb.health with
  | none =>
    rw [hhealth] at h
    obtain ⟨rfl, heq⟩ := leads_done_iff.mp h
    cases heq
    exact ⟨.ofMoment key m, Reading.ofMoment_from hm, rfl, rfl⟩
  | some health =>
    have hids : lb.healthIds = health.state.keys.toFinset := by simp [LoadBalancer.healthIds, hhealth]
    simp only [hhealth, bind_eq] at h
    obtain ⟨atBest, log₁, _, rfl, hbest, h⟩ := leads_bind_done_iff.mp h
    obtain ⟨atSnapshots, log₂, log₃, rfl, hsnapshots, h⟩ := leads_bind_done_iff.mp h
    obtain ⟨hbestFrom, hsilent₁⟩ := readHealth_refines hbest
    obtain ⟨hsnapshotsFrom, hsilent₂⟩ := readHealth_refines hsnapshots
    have hsub₁ : log₁.map Prod.fst ⊆ m :: (log₁ ++ (log₂ ++ log₃)).map Prod.fst := by
      simp only [List.map_append]
      exact fun x hx => List.mem_cons_of_mem _ (List.mem_append_left _ hx)
    have hsub₂ : log₂.map Prod.fst ⊆ m :: (log₁ ++ (log₂ ++ log₃)).map Prod.fst := by
      simp only [List.map_append]
      exact fun x hx => List.mem_cons_of_mem _ (List.mem_append_right _ (List.mem_append_left _ hx))
    have hsub₃ : log₃.map Prod.fst ⊆ m :: (log₁ ++ (log₂ ++ log₃)).map Prod.fst := by
      simp only [List.map_append]
      exact fun x hx => List.mem_cons_of_mem _ (List.mem_append_right _ (List.mem_append_right _ hx))
    have hatBest := (hbestFrom.of_subset hids.subset).mono hsub₁
    have hatSnapshots := (hsnapshotsFrom.of_subset hids.subset).mono hsub₂
    split at h
    · rename_i hempty
      obtain ⟨rfl, heq⟩ := leads_done_iff.mp h
      cases heq
      refine ⟨{ Reading.ofMoment key m with reads := ⟨atBest, atSnapshots, (m.1.chains key).health.state⟩ },
        (Reading.ofMoment_from hm).withReads hatBest hatSnapshots (HealthStates.from_moment hm), ?_, ?_⟩
      · exact if_pos hempty
      · simp only [events_append, hsilent₁, hsilent₂]
        rfl
    · rename_i hempty
      obtain ⟨again, first, second, rfl, hagain, h⟩ := leads_bind_done_iff.mp h
      obtain ⟨rfl, heq⟩ := leads_done_iff.mp h
      cases heq
      rw [List.append_nil] at hsub₃ hatBest hatSnapshots ⊢
      obtain ⟨hagainFrom, hsilent₃⟩ := readHealth_refines hagain
      have hatBestAgain := (hagainFrom.of_subset hids.subset).mono hsub₃
      refine ⟨{ Reading.ofMoment key m with reads := ⟨atBest, atSnapshots, again⟩ },
        (Reading.ofMoment_from hm).withReads hatBest hatSnapshots hatBestAgain, ?_, ?_⟩
      · exact if_neg hempty
      · simp only [events_append, hsilent₁, hsilent₂, hsilent₃]
        rfl

theorem nextRoundRobinFiltered_refines {eligible : List ProviderHandle}
    {r : { r : Option ProviderHandle // ∀ h ∈ r, h ∈ lb.pool.providers ∧ ∃ e ∈ eligible, e.id = h.id }}
    (h : Leads answer (Tasks.nextRoundRobinFiltered key lb eligible) log (.done r)) (m : Moment) :
    ∃ m' ∈ m :: log.map Prod.fst, (lb.nextRoundRobinFiltered (m'.1.chains key).cursor eligible).1 = r.1 ∧
      events log = [] := by
  unfold Tasks.nextRoundRobinFiltered at h
  split at h
  · rename_i hlen
    obtain ⟨rfl, heq⟩ := leads_done_iff.mp h
    cases heq
    refine ⟨m, List.mem_cons_self, ?_, rfl⟩
    unfold LoadBalancer.nextRoundRobinFiltered
    rw [hlen]
    rfl
  · obtain ⟨m', log₁, rfl, hrest⟩ := leads_lockCursor_iff.mp h
    obtain ⟨rfl, heq⟩ := leads_done_iff.mp hrest
    cases heq
    exact ⟨m', by simp, rfl, rfl⟩

theorem weightedRandomFrom_refines {eligible : List ProviderHandle}
    {scores : HashMap ProviderId ProviderHealthSnapshot} {r : { r : Option ProviderHandle // ∀ h ∈ r, h ∈ eligible }}
    (h : Leads answer (Tasks.weightedRandomFrom key eligible scores policy) log (.done r)) (m : Moment) :
    ∃ m' ∈ m :: log.map Prod.fst, LoadBalancer.weightedRandomFrom m'.2.rng eligible scores policy = r.1 ∧
      events log = [] := by
  unfold Tasks.weightedRandomFrom at h
  split at h
  · obtain ⟨rfl, heq⟩ := leads_done_iff.mp h
    cases heq
    exact ⟨m, List.mem_cons_self, rfl, rfl⟩
  · obtain ⟨rfl, heq⟩ := leads_done_iff.mp h
    cases heq
    exact ⟨m, List.mem_cons_self, rfl, rfl⟩
  · obtain ⟨m', log₁, rfl, hrest⟩ := leads_lockRng_iff.mp h
    obtain ⟨rfl, heq⟩ := leads_done_iff.mp hrest
    cases heq
    exact ⟨m', by simp, rfl, rfl⟩

/-- A selection is one of the load balancer at a reading from its moments. -/
theorem select_refines {r : Tasks.Selection lb exclude}
    (h : Leads answer (Tasks.select key lb exclude policy) log (.done r)) (m : Moment) :
    ∃ reading : Reading, reading.From key lb.healthIds (m :: log.map Prod.fst) ∧
      (lb.select reading.reads reading.cursor reading.rng exclude policy).1 = r.1 ∧ events log = [] := by
  unfold Tasks.select at h
  obtain ⟨filter, log₁, log₂, rfl, hfilter, h⟩ := leads_bind_done_iff.mp h
  obtain ⟨reading, hfrom, hreads, hsilent⟩ := healthFilter_refines hfilter m
  have hsub : m :: log₁.map Prod.fst ⊆ m :: (log₁ ++ log₂).map Prod.fst := by
    rw [List.map_append]
    exact List.cons_subset_cons _ (List.subset_append_left _ _)
  have hsub' : m :: log₂.map Prod.fst ⊆ m :: (log₁ ++ log₂).map Prod.fst := by
    rw [List.map_append]
    exact List.cons_subset_cons _ (List.subset_append_right _ _)
  subst hreads
  simp only at h
  split at h
  · rename_i hempty
    obtain ⟨rfl, heq⟩ := leads_done_iff.mp h
    cases heq
    exact ⟨reading, hfrom.mono hsub, LoadBalancer.select_none hempty, by simpa using hsilent⟩
  · rename_i hempty
    split at h
    · rename_i hstrategy
      obtain ⟨x, first, second, rfl, hx, hrest⟩ := leads_bind_done_iff.mp h
      obtain ⟨rfl, heq⟩ := leads_done_iff.mp hrest
      cases heq
      simp only [List.append_nil] at hsub hsub' ⊢
      obtain ⟨m', hm', hresult, hsilent'⟩ := nextRoundRobinFiltered_refines hx m
      refine ⟨{ reading with cursor := (m'.1.chains key).cursor },
        { hfrom.mono hsub with cursor := ⟨m', hsub' hm', rfl⟩ }, ?_, by rw [events_append, hsilent, hsilent']; rfl⟩
      exact (LoadBalancer.select_roundRobin hempty hstrategy).trans hresult
    · rename_i hstrategy
      obtain ⟨x, first, second, rfl, hx, hrest⟩ := leads_bind_done_iff.mp h
      obtain ⟨rfl, heq⟩ := leads_done_iff.mp hrest
      cases heq
      simp only [List.append_nil] at hsub hsub' ⊢
      obtain ⟨m', hm', hresult, hsilent'⟩ := weightedRandomFrom_refines hx m
      refine ⟨{ reading with rng := m'.2.rng },
        { hfrom.mono hsub with rng := ⟨m', hsub' hm', rfl⟩ }, ?_, by rw [events_append, hsilent, hsilent']; rfl⟩
      exact (LoadBalancer.select_weightedRandom hempty hstrategy).trans hresult

end Selection

section Loop
variable {chain : ChainRuntime} {byId : HashMap ProviderId ProviderHandle} {ctx : RequestContext}
  {policy : MethodPolicy} {log : AccessLog} {env : Env} {n : Nat}

theorem draw_eq {reading : Reading} (h : env.reading n = reading) (excluded : Finset ProviderId) :
    (balancerSource env chain policy).draw n excluded =
      (chain.loadBalancer.select reading.reads reading.cursor reading.rng excluded (some policy)).1 := by
  subst h
  rfl

theorem isAvailable_eq {reading : Reading} (h : env.reading n = reading) (p : ProviderId) :
    env.isAvailable n p = reading.breaker.isAvailable reading.now p := by
  subst h
  rfl

theorem selectAvailable_none {excluded : Finset ProviderId}
    (h : (balancerSource env chain policy).draw n excluded = none) :
    selectAvailable env chain policy excluded n = (none, n + 1) :=
  Source.search_none h

theorem selectAvailable_some {excluded : Finset ProviderId} {provider : ProviderHandle}
    (h : (balancerSource env chain policy).draw n excluded = some provider) :
    selectAvailable env chain policy excluded n =
      if env.isAvailable n provider.id then (some provider, n + 1)
      else selectAvailable env chain policy (insert provider.id excluded) (n + 1) :=
  Source.search_some h

/-- A run of the loop is one in every environment that has the readings taken from its log. -/
theorem selectAvailable_refines {excluded : Finset ProviderId} {r : Option ProviderHandle}
    (h : Leads answer (Tasks.selectAvailable chain policy excluded) log (.done r)) (m : Moment) :
    ∃ rs, Taken chain.id chain.loadBalancer.healthIds m log rs ∧ events log = [] ∧ ∀ env n, env.Agrees n rs →
      selectAvailable env chain policy excluded n = (r, n + rs.length) := by
  induction hk : (chain.loadBalancer.pool.ids \ excluded).card using Nat.strong_induction_on
    generalizing excluded log m with
  | _ k ih =>
    subst hk
    rw [Tasks.selectAvailable] at h
    obtain ⟨selection, log₁, log₂, rfl, hselection, hrest⟩ := leads_bind_done_iff.mp h
    obtain ⟨reading, hfrom, hselect, hsilent⟩ := select_refines hselection m
    obtain ⟨_ | provider, hmem⟩ := selection
    · obtain ⟨rfl, heq⟩ := leads_done_iff.mp hrest
      cases heq
      rw [List.append_nil]
      refine ⟨[reading], .single hfrom, hsilent, fun env n hagrees => ?_⟩
      exact selectAvailable_none ((draw_eq hagrees.1 _).trans hselect)
    · obtain ⟨m', log₃, rfl, hnext⟩ := leads_isAvailable_iff.mp hrest
      -- The reading has the circuit that the check of this provider saw.
      have hfrom' : Reading.From chain.id chain.loadBalancer.healthIds
          (m :: (log₁ ++ [(m', (chain.id, Access.isAvailable provider.id))]).map Prod.fst)
          { reading with breaker := (m'.1.chains chain.id).breaker, now := m'.1.now } := by
        refine (hfrom.mono ?_).circuitAt (by simp)
        rw [List.map_append]
        exact List.cons_subset_cons _ (List.subset_append_left _ _)
      have hdraw : ∀ (env : Env) (n : Nat),
          env.reading n = { reading with breaker := (m'.1.chains chain.id).breaker, now := m'.1.now } →
          (balancerSource env chain policy).draw n excluded = some provider :=
        fun env n hreading => (draw_eq hreading _).trans hselect
      have hsilent' : events (log₁ ++ [(m', (chain.id, Access.isAvailable provider.id))]) = [] := by
        rw [events_append, hsilent]
        rfl
      rw [List.append_cons]
      split at hnext
      · rename_i havailable
        obtain ⟨rfl, heq⟩ := leads_done_iff.mp hnext
        cases heq
        rw [List.append_nil]
        refine ⟨[_], .single hfrom', hsilent', fun env n hagrees => ?_⟩
        rw [selectAvailable_some (hdraw env n hagrees.1), isAvailable_eq hagrees.1, if_pos havailable]
        rfl
      · rename_i havailable
        obtain ⟨rs, htaken, hsilent₃, hrun⟩ :=
          ih _ (Tasks.card_sdiff_insert_lt (hmem provider rfl)) hnext (lastMoment m _) rfl
        refine ⟨_ :: rs, .cons hfrom' htaken, ?_, fun env n hagrees => ?_⟩
        · rw [events_append, hsilent', hsilent₃]
          rfl
        · rw [selectAvailable_some (hdraw env n hagrees.1), isAvailable_eq hagrees.1, if_neg havailable,
            hrun env (n + 1) hagrees.2, List.length_cons]
          congr 1
          omega

theorem selectProvider_refines {tried : Finset ProviderId} {r : Option ProviderHandle}
    (h : Leads answer (Tasks.selectProvider chain byId ctx policy tried) log (.done r)) (m : Moment) :
    ∃ rs, Taken chain.id chain.loadBalancer.healthIds m log rs ∧ events log = [] ∧ ∀ env n, env.Agrees n rs →
      selectProvider env chain byId ctx tried policy n = (r, n + rs.length) := by
  unfold Tasks.selectProvider at h
  unfold selectProvider
  cases hover : ctx.providerOverride with
  | none =>
    rw [hover] at h
    exact selectAvailable_refines h m
  | some p =>
    simp only [hover] at h ⊢
    by_cases htried : p ∈ tried
    · simp only [htried, ↓reduceIte] at h ⊢
      exact selectAvailable_refines h m
    · by_cases hin : p ∉ chain.providers
      · simp only [htried, hin, not_false_eq_true, ↓reduceIte] at h ⊢
        obtain ⟨rfl, heq⟩ := leads_done_iff.mp h
        cases heq
        exact ⟨[], .nil m, rfl, fun _ _ _ => rfl⟩
      · simp only [htried, hin, ↓reduceIte] at h ⊢
        cases hlookup : byId.lookup p with
        | none =>
          simp only [hlookup] at h ⊢
          exact selectAvailable_refines h m
        | some handle =>
          simp only [hlookup] at h ⊢
          obtain ⟨m', log₁, rfl, hnext⟩ := leads_isAvailable_iff.mp h
          have hfrom : Reading.From chain.id chain.loadBalancer.healthIds
              (m :: [(m', (chain.id, Access.isAvailable p))].map Prod.fst) (.ofMoment chain.id m') :=
            Reading.ofMoment_from (by simp)
          have hcheck : ∀ (env : Env) (n : Nat), env.reading n = .ofMoment chain.id m' →
              env.isAvailable n p = (m'.1.chains chain.id).breaker.isAvailable m'.1.now p :=
            fun env n hreading => isAvailable_eq hreading p
          split at hnext
          · rename_i havailable
            obtain ⟨rfl, heq⟩ := leads_done_iff.mp hnext
            cases heq
            refine ⟨[_], .single hfrom, rfl, fun env n hagrees => ?_⟩
            rw [hcheck env n hagrees.1, if_pos havailable]
            rfl
          · rename_i havailable
            obtain ⟨rs, htaken, hsilent, hrun⟩ := selectAvailable_refines hnext m'
            refine ⟨_ :: rs, .entry hfrom htaken, hsilent, fun env n hagrees => ?_⟩
            rw [hcheck env n hagrees.1, if_neg havailable, hrun env (n + 1) hagrees.2, List.length_cons]
            congr 1
            omega

variable {tower : Tower}

theorem backoffDelay_refines {attempt maxAttempts : Nat} {backoff next : Option tower.Backoff}
    (h : Leads answer (Tasks.backoffDelay chain tower attempt maxAttempts backoff) log (.done next)) :
    backoffDelay tower attempt maxAttempts backoff = (events log, next) := by
  unfold Tasks.backoffDelay at h
  unfold backoffDelay
  split
  · rename_i hlt
    rw [if_pos hlt] at h
    cases backoff with
    | none =>
      obtain ⟨rfl, heq⟩ := leads_done_iff.mp h
      cases heq
      rfl
    | some b =>
      obtain ⟨m, rest, rfl, hrest⟩ := leads_delay_iff.mp h
      obtain ⟨rfl, heq⟩ := leads_done_iff.mp hrest
      cases heq
      rfl
  · rename_i hlt
    rw [if_neg hlt] at h
    obtain ⟨rfl, heq⟩ := leads_done_iff.mp h
    cases heq
    rfl

/-- The request loop of a task has the trace and the end of the sequential one. -/
theorem attempts_refines {maxAttempts remaining : Nat} {tried : Finset ProviderId} {lastError : Option String}
    {backoff : Option tower.Backoff} {ending : LoopEnd}
    (h : Leads answer (Tasks.attempts chain byId ctx policy tower maxAttempts remaining tried lastError backoff) log
      (.done ending)) (m : Moment) :
    ∃ rs, Taken chain.id chain.loadBalancer.healthIds m log rs ∧ ∀ env n, env.Agrees n rs →
      attempts tower env chain byId ctx policy maxAttempts remaining
        { tried, lastError, backoff, reading := n } = ⟨events log, ending⟩ := by
  induction remaining generalizing tried lastError backoff log m with
  | zero =>
    obtain ⟨rfl, heq⟩ := leads_done_iff.mp h
    cases heq
    exact ⟨[], .nil m, fun _ _ _ => rfl⟩
  | succ remaining ih =>
    rw [Tasks.attempts] at h
    obtain ⟨selected, log₁, log₂, rfl, hselected, h₂⟩ := leads_bind_done_iff.mp h
    obtain ⟨rs, htaken, hsilent, hselect⟩ := selectProvider_refines hselected m
    cases selected with
    | none =>
      obtain ⟨rfl, heq⟩ := leads_done_iff.mp h₂
      cases heq
      rw [List.append_nil]
      refine ⟨rs, htaken, fun env n hagrees => ?_⟩
      rw [attempts, hselect env n hagrees, hsilent]
    | some provider =>
      obtain ⟨m₁, log₃, rfl, h₃⟩ := leads_onRequestStart_iff.mp h₂
      obtain ⟨m₂, t, result, log₄, rfl, hforward, h₄⟩ := leads_forward_iff.mp h₃
      have hupstream : ∀ (env : Env) (k : Nat), env.reading k = .ofMoment chain.id m₂ →
          forwardToProvider (env.upstream k provider) (max provider.timeout policy.timeout) = some (t, result) := by
        intro env k hreading
        have hup : env.upstream k = m₂.2.upstream := congrArg Reading.upstream hreading
        rw [hup]
        exact hforward
      cases result with
      | ok response =>
        obtain ⟨m₃, log₅, rfl, h₅⟩ := leads_onSuccess_iff.mp h₄
        obtain ⟨rfl, heq⟩ := leads_done_iff.mp h₅
        cases heq
        refine ⟨rs ++ [.ofMoment chain.id m₂], htaken.append (.single (Reading.ofMoment_from (by simp))),
          fun env n hagrees => ?_⟩
        obtain ⟨hfirst, hreading, -⟩ := Env.agrees_append.mp hagrees
        rw [attempts, hselect env n hfirst]
        simp only [hupstream env _ hreading, events_append, hsilent, List.nil_append]
        simp [events, accessEvent, hforward]
      | error message =>
        obtain ⟨m₃, log₅, rfl, h₅⟩ := leads_onFailure_iff.mp h₄
        obtain ⟨next, log₆, log₇, rfl, hdelay, h₆⟩ := leads_bind_done_iff.mp h₅
        let call : AccessLog := (m₁, chain.id, .onRequestStart provider.id) ::
          (m₂, chain.id, .forward provider (max provider.timeout policy.timeout)) ::
          (m₃, chain.id, .onFailure provider.id) :: log₆
        obtain ⟨rs', htaken', hrun⟩ := ih h₆ (lastMoment (lastMoment m log₁) call)
        have htakenCall : Taken chain.id chain.loadBalancer.healthIds (lastMoment m log₁) (call ++ log₇)
            (.ofMoment chain.id m₂ :: rs') :=
          .cons (Reading.ofMoment_from (by simp [call])) htaken'
        refine ⟨rs ++ .ofMoment chain.id m₂ :: rs', htaken.append htakenCall, fun env n hagrees => ?_⟩
        obtain ⟨hfirst, hreading, hrest⟩ := Env.agrees_append.mp hagrees
        have hdelay' := backoffDelay_refines hdelay
        rw [attempts, hselect env n hfirst]
        simp only [hupstream env _ hreading, hdelay', hrun env _ hrest, events_append, hsilent, List.nil_append]
        simp [events, accessEvent, hforward]

theorem requestLoop_refines {loop : ChainTask LoopEnd} {ending : LoopEnd}
    (hloop : Tasks.requestLoop chain byId ctx policy tower = some loop) (h : Leads answer loop log (.done ending))
    (m : Moment) :
    ∃ rs, Taken chain.id chain.loadBalancer.healthIds m log rs ∧ ∀ env : Env, env.Agrees 0 rs →
      requestLoop tower env chain byId ctx policy = some ⟨events log, ending⟩ := by
  unfold Tasks.requestLoop at hloop
  unfold requestLoop
  cases hbackoff : policy.backoff with
  | none =>
    rw [hbackoff] at hloop
    cases hloop
    obtain ⟨rs, htaken, hrun⟩ := attempts_refines h m
    exact ⟨rs, htaken, fun env hagrees => congrArg some (hrun env 0 hagrees)⟩
  | some b =>
    rw [hbackoff] at hloop
    obtain ⟨backoff, hmake, rfl⟩ := Option.map_eq_some_iff.mp hloop
    obtain ⟨rs, htaken, hrun⟩ := attempts_refines h m
    refine ⟨rs, htaken, fun env hagrees => ?_⟩
    simp only [hmake, Option.map_some]
    exact congrArg some (hrun env 0 hagrees)

/-- Both panic in `make_backoff`, or neither does. -/
theorem requestLoop_panics (h : Tasks.requestLoop chain byId ctx policy tower = none) (env : Env) :
    requestLoop tower env chain byId ctx policy = none := by
  unfold Tasks.requestLoop at h
  unfold requestLoop
  cases hbackoff : policy.backoff with
  | none =>
    rw [hbackoff] at h
    cases h
  | some b =>
    rw [hbackoff] at h
    exact Option.map_eq_none_iff.mpr (Option.map_eq_none_iff.mp h)

end Loop

/-! ### The handler -/

theorem proxyHandlerImpl_refines {globs : Globs} {decode : String → String} {tower : Tower} {state : ProxyState}
    {job : Tasks.Job} {log : AccessLog} {ending : HandlerEnd}
    (h : Leads answer (Tasks.proxyHandlerImpl globs decode tower state job) log (.done ending)) (m : Moment) :
    ∃ rs, (∀ chain, state.resolveChain decode job.call.chainId = .ok chain →
        Taken chain.id chain.loadBalancer.healthIds m log rs) ∧
      ∀ env : Env, env.Agrees 0 rs →
        proxyHandlerImpl globs decode tower env state job.traceId job.call = (events log, ending) := by
  unfold Tasks.proxyHandlerImpl at h
  unfold proxyHandlerImpl
  cases hchain : state.resolveChain decode job.call.chainId with
  | error err =>
    simp only [hchain, pure_eq, leads_done_iff, Program.done.injEq] at h
    obtain ⟨rfl, rfl⟩ := h
    exact ⟨[], fun _ hc => by simp at hc, fun _ _ => rfl⟩
  | ok chain =>
    simp only [hchain] at h ⊢
    split at h
    · rename_i hloop
      simp only [pure_eq, leads_done_iff, Program.done.injEq] at h
      obtain ⟨rfl, rfl⟩ := h
      refine ⟨[], fun _ _ => .nil m, fun env _ => ?_⟩
      rw [requestLoop_panics hloop env]
      rfl
    · rename_i loop hloop
      obtain ⟨loopEnd, log₁, log₂, rfl, hleads, hrest⟩ := leads_bind_done_iff.mp h
      simp only [pure_eq, leads_done_iff, Program.done.injEq] at hrest
      obtain ⟨rfl, rfl⟩ := hrest
      obtain ⟨rs, htaken, hrun⟩ := requestLoop_refines hloop hleads m
      refine ⟨rs, fun c hc => ?_, fun env hagrees => ?_⟩
      · obtain rfl := Except.ok.inj hc
        rw [List.append_nil]
        exact htaken
      · rw [hrun env hagrees, List.append_nil]

/-! ### The server -/

/-- The moments of a task, and the present one. -/
def seen (w : Server) (t : RequestTask) : List Moment := t.log.map Prod.fst ++ [(w.memory, failingInput)]

section Server
variable {globs : Globs} {decode : String → String} {tower : Tower} {state : ProxyState}
  {ok : Server → Action Tasks.Job Input External → Prop} {memory : ServerMemory} {w : Server} {id : Nat}
  {t : RequestTask}

theorem task_clock (h : Reached (server globs decode tower state).step ok (.start memory) w)
    (ht : w.tasks id = some t) :
    (t.log.map Prod.fst).Pairwise (fun a b => a.1.now ≤ b.1.now) ∧
      ∀ entry ∈ t.log, entry.1.1.now ≤ w.memory.now :=
  Runtime.task_memories (fun a b => a.now ≤ b.now) (fun _ _ _ => Nat.le_trans)
    (fun _ _ _ _ _ hexec => Nat.le_of_eq (ServerMemory.exec_now hexec).symm)
    (fun _ _ _ houtside => ServerMemory.outside_now houtside) h ht

/-- An execution of a task goes on to an end from where it is, with the present memory for whatever it still
    reads. -/
theorem task_completes (h : Reached (server globs decode tower state).step ok (.start memory) w)
    (ht : w.tasks id = some t) :
    ∃ rest ending, Leads answer (Tasks.proxyHandlerImpl globs decode tower state t.job) (t.log ++ rest)
        (.done ending) ∧
      (∀ entry ∈ rest, entry.1 = (w.memory, failingInput)) ∧
      ∀ e, t.program = .done e → rest = [] ∧ ending = e := by
  have hleads : Leads answer (Tasks.proxyHandlerImpl globs decode tower state t.job) t.log t.program :=
    Runtime.task_leads h ht
  obtain ⟨rest, ending, hrest, hmoments⟩ := exists_leads_done (answer_failing w.memory) t.program
  refine ⟨rest, ending, hleads.append hrest, hmoments, fun e he => ?_⟩
  rw [he] at hrest
  obtain ⟨rfl, heq⟩ := leads_done_iff.mp hrest
  cases heq
  exact ⟨rfl, rfl⟩

/-- The first moment of a task, or the present one if there is none, and all moments on the way to the end. -/
theorem completion_clock (h : Reached (server globs decode tower state).step ok (.start memory) w)
    (ht : w.tasks id = some t) {rest : AccessLog} (hrest : ∀ entry ∈ rest, entry.1 = (w.memory, failingInput)) :
    ∃ m ∈ seen w t, Chronological m (t.log ++ rest) ∧
      m :: (t.log ++ rest).map Prod.fst ⊆ seen w t ∧ (lastMoment m (t.log ++ rest)).1.now ≤ w.memory.now := by
  obtain ⟨hpairwise, hnow⟩ := task_clock h ht
  have hpresent : (w.memory, failingInput) ∈ seen w t := List.mem_append_right _ (List.mem_singleton_self _)
  have hmoments : (t.log ++ rest).map Prod.fst ⊆ seen w t := by
    rw [List.map_append]
    refine List.append_subset.mpr ⟨List.subset_append_left _ _, fun x hx => ?_⟩
    obtain ⟨entry, hentry, rfl⟩ := List.mem_map.mp hx
    rw [hrest entry hentry]
    exact hpresent
  have hle : ∀ x ∈ seen w t, x.1.now ≤ w.memory.now := by
    intro x hx
    rcases List.mem_append.mp hx with hx | hx
    · obtain ⟨entry, hentry, rfl⟩ := List.mem_map.mp hx
      exact hnow entry hentry
    · rw [List.mem_singleton.mp hx]
  have hall : ((t.log ++ rest).map Prod.fst).Pairwise fun a b => a.1.now ≤ b.1.now := by
    rw [List.map_append]
    refine List.pairwise_append.mpr ⟨hpairwise, ?_, fun x hx y hy => ?_⟩
    · refine List.pairwise_map.mpr (List.pairwise_of_forall_mem_list fun a ha b hb => ?_)
      rw [hrest a ha, hrest b hb]
    · obtain ⟨entry, hentry, rfl⟩ := List.mem_map.mp hy
      rw [hrest entry hentry]
      exact hle x (List.mem_append_left _ hx)
  -- The first of all moments is no later than the others.
  obtain ⟨m, hm, hfirst⟩ : ∃ m ∈ seen w t, ∀ x ∈ (t.log ++ rest).map Prod.fst, m.1.now ≤ x.1.now := by
    cases hcases : (t.log ++ rest).map Prod.fst with
    | nil => exact ⟨_, hpresent, fun _ hx => absurd hx List.not_mem_nil⟩
    | cons x l =>
      rw [hcases] at hall hmoments
      refine ⟨x, hmoments List.mem_cons_self, fun y hy => ?_⟩
      rcases List.mem_cons.mp hy with rfl | hy
      · exact Nat.le_refl _
      · exact (List.pairwise_cons.mp hall).1 y hy
  have hsub : m :: (t.log ++ rest).map Prod.fst ⊆ seen w t := List.cons_subset.mpr ⟨hm, hmoments⟩
  exact ⟨m, hm, List.pairwise_cons.mpr ⟨hfirst, hall⟩, hsub, hle _ (hsub (lastMoment_mem m _))⟩

/-- The map of a chain has an entry for each of its providers. -/
theorem providers_subset_healthIds {config : ProxyConfig} (hstate : ProxyState.new decode globs config = .ok state)
    {value : Option String} {chain : ChainRuntime} (hchain : state.resolveChain decode value = .ok chain) :
    chain.providers ⊆ chain.loadBalancer.healthIds := by
  intro p hp
  obtain ⟨key, hkey⟩ := lookup_of_resolveChain hchain
  have hhealth := health_of_chain hstate hkey hp
  rw [resolved_pool hstate hchain] at hp
  obtain ⟨handle, hin, rfl⟩ := List.mem_map.mp (List.mem_toFinset.mp hp)
  obtain ⟨s, hs⟩ := (HealthService.over_new chain.loadBalancer.pool.providers chain.tolerance).covers handle hin
  simp only [LoadBalancer.healthIds, hhealth, Option.elim_some, List.mem_toFinset]
  exact AList.mem_keys.mp (AList.lookup_isSome.mp (hs ▸ rfl))

end Server

/-- Whatever the other tasks, the probes and the clock do in between, a request does what the sequential handler
    does in some environment, whose clock does not run backwards and which shows nothing of its chain but what
    the memory was at the accesses of the request, or is now. Of the health map that holds entry by entry: a map
    that a reading shows need not be one that the memory had at any moment. A finished request has done exactly
    that, any other one a first part of it. -/
theorem server_refines (globs : Globs) (decode : String → String) (tower : Tower) (config : ProxyConfig)
    (state : ProxyState) (hstate : ProxyState.new decode globs config = .ok state)
    (ok : Server → Action Tasks.Job Input External → Prop) (memory : ServerMemory) (w : Server)
    (h : Reached (server globs decode tower state).step ok (.start memory) w) (id : Nat) (t : RequestTask)
    (ht : w.tasks id = some t) :
    ∃ env trace ending, proxyHandlerImpl globs decode tower env state t.job.traceId t.job.call = (trace, ending) ∧
      events t.log <+: trace ∧ (∀ e, t.program = .done e → events t.log = trace ∧ ending = e) ∧
      ∀ chain, state.resolveChain decode t.job.call.chainId = .ok chain →
        (∀ i j, i ≤ j → env.now i ≤ env.now j) ∧ ∀ n, (env.reading n).From chain.id chain.providers (seen w t) := by
  obtain ⟨rest, ending, hleads, hrest, hdone⟩ := task_completes h ht
  obtain ⟨m, -, hclock, hsub, hlast⟩ := completion_clock h ht hrest
  obtain ⟨rs, htaken, hrun⟩ := proxyHandlerImpl_refines hleads m
  -- What has not been read yet is as it is now.
  let key : ChainKey := (state.resolveChain decode t.job.call.chainId).toOption.elim ⟨""⟩ ChainRuntime.id
  let present : Reading := .ofMoment key (w.memory, failingInput)
  refine ⟨.ofReadings rs present, events (t.log ++ rest), ending, hrun _ (Env.ofReadings_agrees rs present), ?_, ?_, ?_⟩
  · rw [events_append]
    exact List.prefix_append _ _
  · intro e he
    obtain ⟨rfl, rfl⟩ := hdone e he
    rw [List.append_nil]
    exact ⟨rfl, rfl⟩
  · intro chain hchain
    have hkey : key = chain.id := by
      simp only [key, hchain]
      rfl
    obtain ⟨hpairwise, hbounds⟩ := (htaken chain hchain).clock hclock
    refine ⟨fun i j hle => Env.ofReadings_clock hpairwise (fun r hr => ?_) hle, fun n => ?_⟩
    · exact Nat.le_trans (hbounds r hr).2 hlast
    · have hids := providers_subset_healthIds hstate hchain
      refine Env.ofReadings_from (fun r hr => ?_) ?_ n
      · exact (((htaken chain hchain).reading_from r hr).mono hsub).of_subset hids
      · rw [← hkey]
        exact Reading.ofMoment_from (List.mem_append_right _ (List.mem_singleton_self _))

def Access.entryRead : Access → Option ProviderId
  | .readEntry p => some p
  | _ => none

/-- The task has first read the entries of `b` and `a`, and that of `b` was not the same any more when it read the
    second one. -/
def Torn (t : RequestTask) : Prop :=
  ((t.log.take 2).map fun e => (e.2.1, e.2.2.entryRead)) = [(⟨"one"⟩, some ⟨"b"⟩), (⟨"one"⟩, some ⟨"a"⟩)] ∧
    ((t.log.take 2).map fun e => (e.1.1.chains ⟨"one"⟩).health.state.lookup ⟨"b"⟩).Nodup

instance (t : RequestTask) : Decidable (Torn t) := inferInstanceAs (Decidable (_ ∧ _))

theorem server_refines_torn : ∃ (state : ProxyState) (chain : ChainRuntime) (w : Server) (t : RequestTask) (env : Env)
    (trace : List Event) (ending : HandlerEnd),
    Reached (server literalGlobs id doublingTower state).step (fun _ _ => True) (.start (state.memory 0)) w ∧
      w.tasks 0 = some t ∧ Torn t ∧ (events t.log).countP Event.isStart = 2 ∧
      proxyHandlerImpl literalGlobs id doublingTower env state t.job.traceId t.job.call = (trace, ending) ∧
      events t.log <+: trace ∧ ∀ n, (env.reading n).From chain.id chain.providers (seen w t) := by
  have hrun : ∃ state chain, ProxyState.new id literalGlobs pairedConfig = .ok state ∧
      state.resolveChain id (some "one") = .ok chain ∧
      (run (guarded (server literalGlobs id doublingTower state).step fun _ _ => True) (.start (state.memory 0))
        busyRun).any (fun w => (w.tasks 0).any fun t => decide (t.job.call.chainId = some "one" ∧ Torn t ∧
          (events t.log).countP Event.isStart = 2)) = true :=
    ⟨_, _, rfl, rfl, by decide +kernel⟩
  obtain ⟨state, chain, hstate, hresolve, hrun⟩ := hrun
  obtain ⟨w, h, hw⟩ := exists_reached_of_run hrun
  obtain ⟨t, ht, htask⟩ := (Option.any_eq_true _ _).mp hw
  obtain ⟨hjob, htorn, hstarts⟩ := of_decide_eq_true htask
  obtain ⟨env, trace, ending, hhandled, hprefix, -, hfrom⟩ :=
    server_refines literalGlobs id doublingTower pairedConfig state hstate _ _ w h 0 t ht
  exact ⟨state, chain, w, t, env, trace, ending, h, ht, htorn, hstarts, hhandled, hprefix,
    (hfrom chain (by rw [hjob]; exact hresolve)).2⟩

end Rpceth
