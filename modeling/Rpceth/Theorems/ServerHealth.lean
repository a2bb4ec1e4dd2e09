import Rpceth.Theorems.ServerAuthorization
import Rpceth.Theorems.ServerHistory
import Rpceth.Theorems.TaskWork

/-! Which providers the requests of a running server call: the one they ask for, or one that was healthy by what
    their own last selection has read of the health map, while the probes went on. -/

namespace Rpceth
open Lib Program Happening

/-! ### What a selection has read -/

def readSince (reads : List Entry) (entry : Moment × ChainAccess) : List Entry :=
  match entry.2.2 with
  | .readEntry p => reads ++ [(p, (entry.1.1.chains entry.2.1).health.state.lookup p)]
  | .isAvailable _ => []
  | _ => reads

/-- The entries of the health map that were read since the last check of a circuit. -/
def recentReads (log : AccessLog) : List Entry := log.foldl readSince []

theorem recentReads_snoc (log : AccessLog) (entry : Moment × ChainAccess) :
    recentReads (log ++ [entry]) = readSince (recentReads log) entry := by
  simp [recentReads]

/-- By these readings `select` keeps the provider. The map is read again where a snapshot is left. -/
def PassesAt (lb : LoadBalancer) (policy : MethodPolicy) (p : ProviderId) (reads : List Entry) : Prop :=
  match lb.health with
  | none => True
  | some health => ∃ atBest atSnapshots atBestAgain : List Entry, reads = atBest ++ atSnapshots ++ atBestAgain ∧
      atBest.map Prod.fst = health.state.keys ∧ atSnapshots.map Prod.fst = health.state.keys ∧
      (lb.healthFilter ⟨collectEntries atBest, collectEntries atSnapshots, collectEntries atBestAgain⟩
        (some policy)).passes p = true ∧
      if (HealthService.filteredSnapshots { health with state := collectEntries atBest }
        { health with state := collectEntries atSnapshots }).isEmpty then atBestAgain = []
      else atBestAgain.map Prod.fst = health.state.keys

/-- A request checks only the provider it asks for, and those that pass by its last readings. -/
def selectionProtocol (lb : LoadBalancer) (ctx : RequestContext) (policy : MethodPolicy) :
    Protocol ChainAccess (fun op => op.2.Answer) (List Entry) where
  allowed reads op := ∀ p, op.2 = .isAvailable p → ctx.providerOverride = some p ∨ PassesAt lb policy p reads
  next
    | reads, (_, .readEntry p), entry =>
      let entry : Option ProviderHealthState := entry
      reads ++ [(p, entry)]
    | _, (_, .isAvailable _), _ => []
    | reads, _, _ => reads

/-- The accesses that neither read the health map nor check a circuit. -/
def Access.quiet : Access → Bool
  | .readEntry _ | .isAvailable _ => false
  | _ => true

section
variable {key : ChainKey} {lb : LoadBalancer} {ctx : RequestContext} {policy : MethodPolicy}
  {reads : List Entry} {β : Type} {Q : List Entry → β → Prop}

/-- An iteration reads every entry once. -/
theorem reads_readHealth {health : HealthService} {f : HealthStates → ChainTask β}
    (h : ∀ entries : List Entry, entries.map Prod.fst = health.state.keys →
      Follows (selectionProtocol lb ctx policy) Q (reads ++ entries) (f (collectEntries entries))) :
    Follows (selectionProtocol lb ctx policy) Q reads ((Tasks.readHealth key health).bind f) := by
  have hentries : Follows (selectionProtocol lb ctx policy)
      (fun s entries => s = reads ++ entries ∧ entries.map Prod.fst = health.state.keys) reads
      (Program.forEach (Tasks.readEntry key) health.state.keys) := by
    refine Follows.forEach (I := fun s ks as => s = reads ++ as ∧ as.map Prod.fst = ks) ?_ ⟨by simp, rfl⟩ _
    rintro s ks as p ⟨rfl, rfl⟩
    refine Follows.call (fun _ hcheck => Access.noConfusion hcheck) fun entry => Follows.done ⟨?_, ?_⟩
    · exact List.append_assoc _ _ _
    · simp
  refine Follows.bind (Follows.bind hentries fun s entries hs => ?_) (Q := fun s states =>
    ∃ entries : List Entry, states = collectEntries entries ∧ s = reads ++ entries ∧
      entries.map Prod.fst = health.state.keys) ?_
  · exact Follows.done ⟨entries, rfl, hs⟩
  · rintro s states ⟨entries, rfl, rfl, hkeys⟩
    exact h entries hkeys

theorem reads_quiet {a : Access} (hquiet : a.quiet = true) {f : a.Answer → ChainTask β}
    (h : ∀ x, Follows (selectionProtocol lb ctx policy) Q reads (f x)) :
    Follows (selectionProtocol lb ctx policy) Q reads ((Tasks.ask key a).bind f) := by
  cases a with
  | readEntry | isAvailable => cases hquiet
  | _ => exact Follows.call (fun _ hcheck => Access.noConfusion hcheck) h

theorem reads_isAvailable {p : ProviderId} (hp : ctx.providerOverride = some p ∨ PassesAt lb policy p reads)
    {f : Bool → ChainTask β} (h : ∀ available, Follows (selectionProtocol lb ctx policy) Q [] (f available)) :
    Follows (selectionProtocol lb ctx policy) Q reads ((Tasks.isAvailable key p).bind f) :=
  Follows.call (fun _ hcheck => Access.isAvailable.inj hcheck ▸ hp) h

/-! ### Selection -/

theorem healthFilter_reads : Follows (selectionProtocol lb ctx policy)
    (fun reads filter => ∀ p, filter.passes p = true → PassesAt lb policy p reads) []
    (Tasks.healthFilter key lb (some policy)) := by
  unfold Tasks.healthFilter
  split
  · rename_i health hhealth
    refine reads_readHealth fun atBest hbest => reads_readHealth fun atSnapshots hsnapshots => ?_
    dsimp only
    split
    · rename_i hempty
      refine Follows.done fun p hp => ?_
      simp only [PassesAt, hhealth]
      refine ⟨atBest, atSnapshots, [], by simp, hbest, hsnapshots, ?_, ?_⟩
      · simpa only [LoadBalancer.healthFilter, hhealth, hempty, ↓reduceIte] using hp
      · rw [if_pos hempty]
    · rename_i hempty
      refine reads_readHealth fun atBestAgain hagain => Follows.done fun p hp => ?_
      simp only [PassesAt, hhealth]
      refine ⟨atBest, atSnapshots, atBestAgain, by simp, hbest, hsnapshots, ?_, ?_⟩
      · simpa only [LoadBalancer.healthFilter, hhealth, hempty, Bool.false_eq_true, ↓reduceIte] using hp
      · rw [if_neg hempty]
        exact hagain
  · rename_i hhealth
    refine Follows.done fun p _ => ?_
    simp only [PassesAt, hhealth]

theorem nextRoundRobinFiltered_reads (eligible : List ProviderHandle) :
    Follows (selectionProtocol lb ctx policy) (fun reads' _ => reads' = reads) reads
      (Tasks.nextRoundRobinFiltered key lb eligible) := by
  unfold Tasks.nextRoundRobinFiltered
  split
  · exact Follows.done rfl
  · exact reads_quiet rfl fun _ => Follows.done rfl

theorem weightedRandomFrom_reads (eligible : List ProviderHandle)
    (scores : HashMap ProviderId ProviderHealthSnapshot) (p : Option MethodPolicy) :
    Follows (selectionProtocol lb ctx policy) (fun reads' _ => reads' = reads) reads
      (Tasks.weightedRandomFrom key eligible scores p) := by
  unfold Tasks.weightedRandomFrom
  split
  · exact Follows.done rfl
  · exact Follows.done rfl
  · exact reads_quiet rfl fun _ => Follows.done rfl

theorem select_reads (excluded : Finset ProviderId) : Follows (selectionProtocol lb ctx policy)
    (fun reads selection => ∀ h ∈ selection.1, PassesAt lb policy h.id reads) []
    (Tasks.select key lb excluded (some policy)) := by
  unfold Tasks.select
  refine Follows.bind healthFilter_reads fun reads filter hfilter => ?_
  dsimp only
  split
  · exact Follows.done (by simp)
  · split
    · refine Follows.bind (nextRoundRobinFiltered_reads _) fun reads' r heq => Follows.done fun h hr => ?_
      subst heq
      obtain ⟨-, e, he, hid⟩ := r.2 h hr
      exact hid ▸ hfilter e.id (LoadBalancer.mem_eligible.mp he).2.2
    · refine Follows.bind (weightedRandomFrom_reads _ _ _) fun reads' r heq => Follows.done fun h hr => ?_
      subst heq
      exact hfilter h.id (LoadBalancer.mem_eligible.mp (r.2 h hr)).2.2

end

section
variable {chain : ChainRuntime} {byId : HashMap ProviderId ProviderHandle} {ctx : RequestContext}
  {policy : MethodPolicy} {tower : Tower}

/-- A search that has found a provider has just checked it, so that the next one starts with no readings. -/
def Restarts (reads : List Entry) (selected : Option ProviderHandle) : Prop := selected.isSome → reads = []

theorem selectAvailable_reads (excluded : Finset ProviderId) :
    Follows (selectionProtocol chain.loadBalancer ctx policy) Restarts []
      (Tasks.selectAvailable chain policy excluded) := by
  induction hk : (chain.loadBalancer.pool.ids \ excluded).card using Nat.strong_induction_on
    generalizing excluded with
  | _ k ih =>
    subst hk
    rw [Tasks.selectAvailable]
    refine Follows.bind (select_reads excluded) fun reads selection hselection => ?_
    obtain ⟨_ | provider, hmem⟩ := selection
    · exact Follows.done fun h => by cases h
    · refine reads_isAvailable (.inr (hselection provider rfl)) fun available => ?_
      cases available with
      | true => exact Follows.done fun _ => rfl
      | false => exact ih _ (Tasks.card_sdiff_insert_lt (hmem provider rfl)) _ rfl

theorem selectProvider_reads (tried : Finset ProviderId) :
    Follows (selectionProtocol chain.loadBalancer ctx policy) Restarts []
      (Tasks.selectProvider chain byId ctx policy tried) := by
  unfold Tasks.selectProvider
  split
  · exact selectAvailable_reads tried
  · rename_i p hover
    dsimp only
    split
    · exact selectAvailable_reads _
    · split
      · exact Follows.done fun h => by cases h
      · split
        · exact selectAvailable_reads _
        · refine reads_isAvailable (.inl hover) fun available => ?_
          cases available with
          | true => exact Follows.done fun _ => rfl
          | false => exact selectAvailable_reads _

theorem backoffDelay_reads (attempt maxAttempts : Nat) (backoff : Option tower.Backoff) :
    Follows (selectionProtocol chain.loadBalancer ctx policy) (fun reads _ => reads = []) []
      (Tasks.backoffDelay chain tower attempt maxAttempts backoff) := by
  unfold Tasks.backoffDelay
  split
  · split
    · exact reads_quiet rfl fun _ => Follows.done rfl
    · exact Follows.done rfl
  · exact Follows.done rfl

theorem attempts_reads (maxAttempts remaining : Nat) (tried : Finset ProviderId) (lastError : Option String)
    (backoff : Option tower.Backoff) :
    Follows (selectionProtocol chain.loadBalancer ctx policy) (fun _ _ => True) []
      (Tasks.attempts chain byId ctx policy tower maxAttempts remaining tried lastError backoff) := by
  induction remaining generalizing tried lastError backoff with
  | zero => exact Follows.done trivial
  | succ remaining ih =>
    rw [Tasks.attempts]
    refine Follows.bind (selectProvider_reads tried) fun reads selected hrestarts => ?_
    rcases selected with _ | provider
    · exact Follows.done trivial
    · obtain rfl := hrestarts rfl
      refine reads_quiet rfl fun _ => reads_quiet rfl fun result => ?_
      change Except String ProviderResponse at result
      rcases result with message | response
      · refine reads_quiet rfl fun _ => Follows.bind (backoffDelay_reads _ _ _) fun reads backoff' heq => ?_
        subst heq
        exact ih _ _ _
      · exact reads_quiet rfl fun _ => Follows.done trivial

theorem requestLoop_reads {loop : ChainTask LoopEnd}
    (hloop : Tasks.requestLoop chain byId ctx policy tower = some loop) :
    Follows (selectionProtocol chain.loadBalancer ctx policy) (fun _ _ => True) [] loop := by
  unfold Tasks.requestLoop at hloop
  split at hloop
  · cases hloop
    exact attempts_reads _ _ _ _ _
  · obtain ⟨backoff, -, rfl⟩ := Option.map_eq_some_iff.mp hloop
    exact attempts_reads _ _ _ _ _

end

theorem proxyHandlerImpl_reads {globs : Globs} {decode : String → String} {tower : Tower} {state : ProxyState}
    {job : Tasks.Job} {chain : ChainRuntime} (hchain : state.resolveChain decode job.call.chainId = .ok chain) :
    Follows (selectionProtocol chain.loadBalancer job.call.ctx (job.policy globs chain)) (fun _ _ => True) []
      (Tasks.proxyHandlerImpl globs decode tower state job) := by
  unfold Tasks.proxyHandlerImpl
  rw [hchain]
  dsimp only
  split
  · exact Follows.done trivial
  · rename_i loop hloop
    exact Follows.bind (requestLoop_reads hloop) fun _ _ _ => Follows.done trivial

/-! ### What the readings mean -/

/-- The entries are those of two passes over the map or three, each of which has read every provider of `ids` once.
    By them no provider was within the tolerance of the service; or `p` was, and within that of the policy too,
    by the best score of the third pass. -/
def Healthy (ids : List ProviderId) (service policy : ToleranceLevel) (p : ProviderId) (reads : List Entry) : Prop :=
  ∃ atBest atSnapshots atBestAgain : List Entry, reads = atBest ++ atSnapshots ++ atBestAgain ∧
    atBest.map Prod.fst = ids ∧ atSnapshots.map Prod.fst = ids ∧
    ((atBestAgain = [] ∧ ∀ q s, (q, some s) ∈ atSnapshots →
        s.snapshot.isWithinTolerance (HealthService.bestScore ⟨collectEntries atBest, service⟩) service = false) ∨
      (atBestAgain.map Prod.fst = ids ∧ ∃ s, (p, some s) ∈ atSnapshots ∧
        s.snapshot.isWithinTolerance (HealthService.bestScore ⟨collectEntries atBest, service⟩) service = true ∧
        s.snapshot.isWithinTolerance (HealthService.bestScore ⟨collectEntries atBestAgain, service⟩) policy = true))

theorem PassesAt.healthy {lb : LoadBalancer} {health : HealthService} {policy : MethodPolicy} {p : ProviderId}
    {reads : List Entry} (h : PassesAt lb policy p reads) (hhealth : lb.health = some health)
    (hkeyed : ∀ q s, (q, some s) ∈ reads → s.provider.id = q) :
    Healthy health.state.keys health.tolerance policy.tolerance p reads := by
  simp only [PassesAt, hhealth] at h
  obtain ⟨atBest, atSnapshots, atBestAgain, rfl, hbest, hsnapshots, hpasses, hagain⟩ := h
  have hlookup : ∀ q s, (collectEntries atSnapshots).lookup q = some s ↔ (q, some s) ∈ atSnapshots := fun q s =>
    lookup_collectEntries_eq_some (hsnapshots ▸ health.state.keys_nodup)
  have hkeyed' : HealthService.Keyed (collectEntries atSnapshots) := fun q s hs =>
    hkeyed q s (by simp [(hlookup q s).mp hs])
  have hiff := (passes_iff hhealth hkeyed' (some policy) p).mp hpasses
  refine ⟨atBest, atSnapshots, atBestAgain, rfl, hbest, hsnapshots, ?_⟩
  by_cases hempty : (HealthService.filteredSnapshots { health with state := collectEntries atBest }
      { health with state := collectEntries atSnapshots }).isEmpty = true
  · rw [if_pos hempty] at hagain
    refine .inl ⟨hagain, fun q s hs => ?_⟩
    exact HealthService.filteredSnapshots_isEmpty_iff.mp hempty q s ((hlookup q s).mpr hs)
  · rw [if_neg hempty] at hagain
    rcases hiff with hnone | ⟨s, hs, hfits⟩
    · exact absurd (HealthService.filteredSnapshots_isEmpty_iff.mpr hnone) hempty
    · exact .inr ⟨hagain, s, (hlookup p s).mp hs, hfits⟩

section
variable {lb : LoadBalancer} {ctx : RequestContext} {policy : MethodPolicy}

theorem next_eq_readSince {reads : List Entry} {m : Moment} {op : ChainAccess} {a : op.2.Answer}
    (hanswer : answer m op = some a) : (selectionProtocol lb ctx policy).next reads op a = readSince reads (m, op) := by
  obtain ⟨key, access⟩ := op
  cases access with
  | readEntry p =>
    obtain rfl := Option.some.inj hanswer
    rfl
  | _ => rfl

/-- Every check in the log is of the provider that the request asks for, or of one that passes by what was read
    before it. -/
def ChecksPassing (lb : LoadBalancer) (ctx : RequestContext) (policy : MethodPolicy) (log : AccessLog) : Prop :=
  ∀ before m key p after, log = before ++ (m, key, .isAvailable p) :: after →
    ctx.providerOverride = some p ∨ PassesAt lb policy p (recentReads before)

theorem ChecksPassing.snoc {log : AccessLog} (h : ChecksPassing lb ctx policy log) {m : Moment} {op : ChainAccess}
    (hallowed : (selectionProtocol lb ctx policy).allowed (recentReads log) op) :
    ChecksPassing lb ctx policy (log ++ [(m, op)]) := by
  intro before m' key p after hsplit
  rcases split_snoc hsplit with ⟨rfl, heq⟩ | ⟨after', hlog⟩
  · cases heq
    exact hallowed p rfl
  · exact h before m' key p after' hlog

/-- A program that keeps to the selections of a request has a log with passing checks. -/
theorem checksPassing_of_follows {β : Type} {Q : List Entry → β → Prop} {p q : ChainTask β} {log : AccessLog}
    (hp : Follows (selectionProtocol lb ctx policy) Q [] p) (h : Leads answer p log q) :
    ChecksPassing lb ctx policy log := by
  have hstart : ([] : List Entry) = recentReads [] ∧ ChecksPassing lb ctx policy [] :=
    ⟨rfl, fun _ _ _ _ _ hsplit => by simp at hsplit⟩
  refine (Protocol.follows_invariant
    (I := fun reads log => reads = recentReads log ∧ ChecksPassing lb ctx policy log) ?_ hp h hstart).2
  rintro reads before m op a ⟨rfl, hchecks⟩ hallowed hanswer
  rw [recentReads_snoc, next_eq_readSince hanswer]
  exact ⟨rfl, hchecks.snoc hallowed⟩

end

/-- Each entry that was read was in the map at an access in the log. -/
theorem mem_recentReads {log : AccessLog} {e : Entry} (h : e ∈ recentReads log) :
    ∃ m key, (m, key, .readEntry e.1) ∈ log ∧ e.2 = (m.1.chains key).health.state.lookup e.1 := by
  induction log using List.reverseRecOn with
  | nil => cases h
  | append_singleton log entry ih =>
    have hold : e ∈ recentReads log → ∃ m key, (m, key, .readEntry e.1) ∈ log ++ [entry] ∧
        e.2 = (m.1.chains key).health.state.lookup e.1 := by
      intro hmem
      obtain ⟨m, key, hread, heq⟩ := ih hmem
      exact ⟨m, key, List.mem_append_left _ hread, heq⟩
    rw [recentReads_snoc] at h
    obtain ⟨m, key, access⟩ := entry
    cases access with
    | readEntry p =>
      rcases List.mem_append.mp h with hmem | hmem
      · exact hold hmem
      · obtain rfl := List.mem_singleton.mp hmem
        exact ⟨m, key, by simp, rfl⟩
    | isAvailable => cases h
    | _ => exact hold h

/-! ### The calls -/

end Rpceth
