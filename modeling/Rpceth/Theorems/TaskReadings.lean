import Rpceth.Server.System
import Rpceth.Theorems.RequestLoop

/-! What a task has seen, as the readings of an environment: the accesses of a log, taken together in successive
    parts, answer one reading after the other. -/

namespace Rpceth
open Lib

abbrev AccessLog : Type := List (Moment × ChainAccess)

/-- What an access answers at a moment. -/
def answer (m : Moment) (op : ChainAccess) : Option op.2.Answer := (ServerMemory.exec m.1 m.2 op).map Prod.fst

/-- The event of an access in the trace of the request loop, if it is one. -/
def accessEvent (entry : Moment × ChainAccess) : Option Event :=
  match entry.2.2 with
  | .onRequestStart p => some (.onRequestStart p)
  | .forward h timeout => (forwardToProvider (entry.1.2.upstream h) timeout).map fun x => .forward h.id x.2
  | .onSuccess p => some (.onSuccess p)
  | .onFailure p => some (.onFailure p)
  | .delay d => some (.delay d)
  | _ => none

def events (log : AccessLog) : List Event := log.filterMap accessEvent

theorem events_append (l l' : AccessLog) : events (l ++ l') = events l ++ events l' := List.filterMap_append

/-! ### Entries -/

theorem lookup_collectEntries {entries : List Entry} (h : (entries.map Prod.fst).Nodup) {p : ProviderId}
    {entry : Option ProviderHealthState} (he : (p, entry) ∈ entries) : (collectEntries entries).lookup p = entry := by
  have hfst : ∀ {e : ProviderId × ProviderHealthState}, e ∈ entries.filterMap (fun e => e.2.map (Prod.mk e.1)) →
      (e.1, some e.2) ∈ entries := by
    intro e hmem
    obtain ⟨⟨q, s⟩, hin, heq⟩ := List.mem_filterMap.mp hmem
    obtain ⟨s', rfl, rfl⟩ := Option.map_eq_some_iff.mp heq
    exact hin
  cases hlookup : (collectEntries entries).lookup p with
  | some s =>
    have hin := hfst (HashMap.mem_of_lookup_collect hlookup)
    exact (Prod.mk.inj (List.inj_on_of_nodup_map h hin he rfl)).2
  | none =>
    cases entry with
    | none => rfl
    | some s =>
      have hmem : p ∈ (entries.filterMap fun e => e.2.map (Prod.mk e.1)).map Prod.fst :=
        List.mem_map.mpr ⟨(p, s), List.mem_filterMap.mpr ⟨(p, some s), he, rfl⟩, rfl⟩
      have hsome := HashMap.lookup_collect_isSome.mpr hmem
      rw [← collectEntries, hlookup] at hsome
      cases hsome

theorem lookup_collectEntries_of_notMem {entries : List Entry} {p : ProviderId} (h : p ∉ entries.map Prod.fst) :
    (collectEntries entries).lookup p = none := by
  refine HashMap.lookup_insertAll_of_notMem (fun hmem => h ?_) ∅
  obtain ⟨e, he, rfl⟩ := List.mem_map.mp hmem
  obtain ⟨e', he', heq⟩ := List.mem_filterMap.mp he
  obtain ⟨s, -, rfl⟩ := Option.map_eq_some_iff.mp heq
  exact List.mem_map_of_mem he'

theorem lookup_collectEntries_eq_some {entries : List Entry} (h : (entries.map Prod.fst).Nodup) {p : ProviderId}
    {s : ProviderHealthState} : (collectEntries entries).lookup p = some s ↔ (p, some s) ∈ entries := by
  refine ⟨fun hs => ?_, fun he => lookup_collectEntries h he⟩
  by_cases hp : p ∈ entries.map Prod.fst
  · obtain ⟨e, he, rfl⟩ := List.mem_map.mp hp
    rw [lookup_collectEntries h he] at hs
    exact hs ▸ he
  · rw [lookup_collectEntries_of_notMem hp] at hs
    cases hs

/-! ### Readings -/

/-- The answers of an environment to one reading. -/
structure Reading where
  reads : HealthReads
  cursor : Nat
  rng : WeightedIndex
  breaker : CircuitBreaker
  now : Instant
  upstream : ProviderHandle → Exchange

def Env.reading (env : Env) (n : Nat) : Reading where
  reads := env.reads n
  cursor := env.cursor n
  rng := env.rng n
  breaker := env.breaker n
  now := env.now n
  upstream := env.upstream n

/-- The environment with the given readings, and the same ones from then on. -/
def Env.ofReadings (rs : List Reading) (last : Reading) : Env where
  reads n := (rs.getD n last).reads
  cursor n := (rs.getD n last).cursor
  rng n := (rs.getD n last).rng
  breaker n := (rs.getD n last).breaker
  now n := (rs.getD n last).now
  upstream n := (rs.getD n last).upstream

/-- The readings from `n` on. -/
def Env.Agrees (env : Env) : Nat → List Reading → Prop
  | _, [] => True
  | n, r :: rs => env.reading n = r ∧ env.Agrees (n + 1) rs

theorem Env.agrees_append {env : Env} {n : Nat} {rs rs' : List Reading} :
    env.Agrees n (rs ++ rs') ↔ env.Agrees n rs ∧ env.Agrees (n + rs.length) rs' := by
  induction rs generalizing n with
  | nil => simp [Env.Agrees]
  | cons r rs ih =>
    simp only [List.cons_append, Env.Agrees, ih, List.length_cons, and_assoc]
    rw [Nat.add_assoc, Nat.add_comm 1]

theorem Env.reading_ofReadings (rs : List Reading) (last : Reading) (n : Nat) :
    (Env.ofReadings rs last).reading n = rs.getD n last := rfl

theorem Env.ofReadings_agrees (rs : List Reading) (last : Reading) : (Env.ofReadings rs last).Agrees 0 rs := by
  have later : ∀ front back, rs = front ++ back → (Env.ofReadings rs last).Agrees front.length back := by
    intro front back
    induction back generalizing front with
    | nil => exact fun _ => trivial
    | cons r back ih =>
      intro heq
      refine ⟨?_, ?_⟩
      · rw [Env.reading_ofReadings, heq]
        simp
      · have hrest := ih (front ++ [r]) (by simp [heq])
        simpa using hrest
  exact later [] rs rfl

/-- What the memory of a chain and the outside show at a moment. -/
def Reading.ofMoment (key : ChainKey) (m : Moment) : Reading where
  reads := .fixed (m.1.chains key).health.state
  cursor := (m.1.chains key).cursor
  rng := m.2.rng
  breaker := (m.1.chains key).breaker
  now := m.1.now
  upstream := m.2.upstream

/-- The providers of the health map that the load balancer reads. -/
def LoadBalancer.healthIds (lb : LoadBalancer) : Finset ProviderId :=
  lb.health.elim ∅ fun health => health.state.keys.toFinset

/-- Each entry of the map is what the memory of the chain had for the provider at one of the moments. A map that was
    read entry by entry has nothing for other providers than `ids`. -/
def HealthStates.From (key : ChainKey) (ids : Finset ProviderId) (ms : List Moment) (states : HealthStates) : Prop :=
  ∀ p, (∃ m ∈ ms, states.lookup p = (m.1.chains key).health.state.lookup p) ∨ (p ∉ ids ∧ states.lookup p = none)

/-- Every part of a reading is what the memory of the chain was, or what came in, at one of the moments; of the
    health maps, every entry is. -/
structure Reading.From (key : ChainKey) (ids : Finset ProviderId) (ms : List Moment) (r : Reading) : Prop where
  atBest : HealthStates.From key ids ms r.reads.atBest
  atSnapshots : HealthStates.From key ids ms r.reads.atSnapshots
  atBestAgain : HealthStates.From key ids ms r.reads.atBestAgain
  cursor : ∃ m ∈ ms, r.cursor = (m.1.chains key).cursor
  rng : ∃ m ∈ ms, r.rng = m.2.rng
  circuit : ∃ m ∈ ms, r.breaker = (m.1.chains key).breaker ∧ r.now = m.1.now
  upstream : ∃ m ∈ ms, r.upstream = m.2.upstream

section
variable {key : ChainKey} {ids ids' : Finset ProviderId} {m : Moment} {ms ms' : List Moment} {states : HealthStates}
  {r : Reading}

theorem HealthStates.from_moment (h : m ∈ ms) : HealthStates.From key ids ms (m.1.chains key).health.state :=
  fun _ => .inl ⟨m, h, rfl⟩

theorem HealthStates.From.mono (h : HealthStates.From key ids ms states) (hsub : ms ⊆ ms') :
    HealthStates.From key ids ms' states :=
  fun p => (h p).imp_left fun ⟨m, hm, heq⟩ => ⟨m, hsub hm, heq⟩

theorem HealthStates.From.of_subset (h : HealthStates.From key ids ms states) (hids : ids' ⊆ ids) :
    HealthStates.From key ids' ms states :=
  fun p => (h p).imp_right fun ⟨hp, hnone⟩ => ⟨fun hin => hp (hids hin), hnone⟩

theorem Reading.ofMoment_from (h : m ∈ ms) : (Reading.ofMoment key m).From key ids ms where
  atBest := HealthStates.from_moment h
  atSnapshots := HealthStates.from_moment h
  atBestAgain := HealthStates.from_moment h
  cursor := ⟨m, h, rfl⟩
  rng := ⟨m, h, rfl⟩
  circuit := ⟨m, h, rfl, rfl⟩
  upstream := ⟨m, h, rfl⟩

theorem Reading.From.of_subset (h : r.From key ids ms) (hids : ids' ⊆ ids) : r.From key ids' ms :=
  { h with
    atBest := h.atBest.of_subset hids
    atSnapshots := h.atSnapshots.of_subset hids
    atBestAgain := h.atBestAgain.of_subset hids }

theorem Reading.From.mono (h : r.From key ids ms) (hsub : ms ⊆ ms') : r.From key ids ms' := by
  obtain ⟨hbest, hsnapshots, hagain, ⟨d, hd, hcursor⟩, ⟨e, he, hrng⟩, ⟨f, hf, hcircuit⟩, g, hg, hupstream⟩ := h
  exact ⟨hbest.mono hsub, hsnapshots.mono hsub, hagain.mono hsub, ⟨d, hsub hd, hcursor⟩,
    ⟨e, hsub he, hrng⟩, ⟨f, hsub hf, hcircuit⟩, g, hsub hg, hupstream⟩

theorem Reading.From.withReads (h : r.From key ids ms) {atBest atSnapshots atBestAgain : HealthStates}
    (hbest : HealthStates.From key ids ms atBest) (hsnapshots : HealthStates.From key ids ms atSnapshots)
    (hagain : HealthStates.From key ids ms atBestAgain) :
    Reading.From key ids ms { r with reads := ⟨atBest, atSnapshots, atBestAgain⟩ } :=
  ⟨hbest, hsnapshots, hagain, h.cursor, h.rng, h.circuit, h.upstream⟩

/-- The circuit of a reading may be looked at later than the rest. -/
theorem Reading.From.circuitAt (h : r.From key ids ms) (hm : m ∈ ms) :
    Reading.From key ids ms { r with breaker := (m.1.chains key).breaker, now := m.1.now } :=
  { h with circuit := ⟨m, hm, rfl, rfl⟩ }

end

/-! ### Logs as readings -/

def lastMoment : Moment → AccessLog → Moment
  | m, [] => m
  | _, (m, _) :: rest => lastMoment m rest

theorem lastMoment_append (m : Moment) (l l' : AccessLog) :
    lastMoment m (l ++ l') = lastMoment (lastMoment m l) l' := by
  induction l generalizing m with
  | nil => rfl
  | cons entry l ih => exact ih entry.1

/-- The readings are taken from successive parts of the log, each one from the moments of its part and the last
    moment before. -/
inductive Taken (key : ChainKey) (ids : Finset ProviderId) : Moment → AccessLog → List Reading → Prop
  | nil (m : Moment) : Taken key ids m [] []
  | cons {m : Moment} {part rest : AccessLog} {r : Reading} {rs : List Reading}
      (taken : r.From key ids (m :: part.map Prod.fst)) (later : Taken key ids (lastMoment m part) rest rs) :
      Taken key ids m (part ++ rest) (r :: rs)

section
variable {key : ChainKey} {ids : Finset ProviderId} {m : Moment} {log log' : AccessLog} {r : Reading}
  {rs rs' : List Reading}

theorem Taken.single (h : r.From key ids (m :: log.map Prod.fst)) : Taken key ids m log [r] := by
  have hcons : Taken key ids m (log ++ []) [r] := .cons h (.nil _)
  rwa [List.append_nil] at hcons

/-- A reading from one access and the last moment before it. -/
theorem Taken.entry {entry : Moment × ChainAccess} (h : r.From key ids [m, entry.1])
    (later : Taken key ids entry.1 log rs) : Taken key ids m (entry :: log) (r :: rs) := by
  have hcons : Taken key ids m ([entry] ++ log) (r :: rs) := .cons h later
  exact hcons

theorem Taken.append (h : Taken key ids m log rs) (h' : Taken key ids (lastMoment m log) log' rs') :
    Taken key ids m (log ++ log') (rs ++ rs') := by
  induction h with
  | nil m => exact h'
  | cons taken _ ih =>
    rw [lastMoment_append] at h'
    rw [List.append_assoc]
    exact .cons taken (ih h')

end

/-! ### What the readings of a log have -/

/-- The clock does not run backwards along the log. -/
def Chronological (m : Moment) (log : AccessLog) : Prop :=
  (m :: log.map Prod.fst).Pairwise fun a b => a.1.now ≤ b.1.now

theorem lastMoment_mem (m : Moment) (log : AccessLog) : lastMoment m log ∈ m :: log.map Prod.fst := by
  induction log generalizing m with
  | nil => exact List.mem_cons_self
  | cons entry log ih => exact List.mem_cons_of_mem _ (ih entry.1)

theorem Chronological.le_last {m : Moment} {log : AccessLog} (h : Chronological m log) :
    ∀ x ∈ m :: log.map Prod.fst, x.1.now ≤ (lastMoment m log).1.now := by
  induction log generalizing m with
  | nil =>
    intro x hx
    rw [List.mem_singleton.mp hx]
    exact Nat.le_refl _
  | cons entry log ih =>
    intro x hx
    rcases List.mem_cons.mp hx with rfl | hx
    · exact (List.pairwise_cons.mp h).1 _ (lastMoment_mem entry.1 log)
    · exact ih (List.pairwise_cons.mp h).2 x hx

theorem Chronological.split {m : Moment} {log log' : AccessLog} (h : Chronological m (log ++ log')) :
    Chronological m log ∧ Chronological (lastMoment m log) log' := by
  induction log generalizing m with
  | nil => exact ⟨List.pairwise_singleton _ _, h⟩
  | cons entry log ih =>
    obtain ⟨hfirst, hrest⟩ := List.pairwise_cons.mp h
    obtain ⟨hlog, hlog'⟩ := ih hrest
    refine ⟨List.pairwise_cons.mpr ⟨fun x hx => hfirst x ?_, hlog⟩, hlog'⟩
    have hsub : log.map Prod.fst ⊆ (log ++ log').map Prod.fst := by
      rw [List.map_append]
      exact List.subset_append_left _ _
    exact List.cons_subset_cons _ hsub hx

section
variable {key : ChainKey} {ids : Finset ProviderId} {m : Moment} {log : AccessLog} {rs : List Reading}

theorem Taken.reading_from (h : Taken key ids m log rs) : ∀ r ∈ rs, r.From key ids (m :: log.map Prod.fst) := by
  induction h with
  | nil m => exact fun _ hr => absurd hr List.not_mem_nil
  | @cons m part rest r rs taken _ ih =>
    intro r' hr'
    rw [List.map_append]
    rcases List.mem_cons.mp hr' with rfl | hr'
    · exact taken.mono (List.cons_subset_cons _ (List.subset_append_left _ _))
    · rw [← List.cons_append]
      refine (ih r' hr').mono (List.cons_subset.mpr ⟨?_, List.subset_append_right _ _⟩)
      exact List.mem_append_left _ (lastMoment_mem m part)

/-- The clock of the readings does not run backwards, either. -/
theorem Taken.clock (h : Taken key ids m log rs) (hlog : Chronological m log) :
    rs.Pairwise (fun r r' => r.now ≤ r'.now) ∧
      ∀ r ∈ rs, m.1.now ≤ r.now ∧ r.now ≤ (lastMoment m log).1.now := by
  induction h with
  | nil m => exact ⟨.nil, fun _ hr => absurd hr List.not_mem_nil⟩
  | @cons m part rest r rs taken _ ih =>
    obtain ⟨hpart, hrest⟩ := hlog.split
    obtain ⟨hpairwise, hbounds⟩ := ih hrest
    obtain ⟨x, hx, -, hnow⟩ := taken.circuit
    have hlast := lastMoment_append m part rest
    have hle : m.1.now ≤ x.1.now := by
      rcases List.mem_cons.mp hx with rfl | hx
      · exact Nat.le_refl _
      · exact (List.pairwise_cons.mp hpart).1 x hx
    have hx' := hpart.le_last x hx
    have hm' := hpart.le_last m List.mem_cons_self
    have hend := hrest.le_last _ List.mem_cons_self
    rw [hlast]
    refine ⟨List.pairwise_cons.mpr ⟨fun r' hr' => ?_, hpairwise⟩, fun r' hr' => ?_⟩
    · rw [hnow]
      exact Nat.le_trans hx' (hbounds r' hr').1
    · rcases List.mem_cons.mp hr' with rfl | hr'
      · rw [hnow]
        exact ⟨hle, Nat.le_trans hx' hend⟩
      · exact ⟨Nat.le_trans hm' (hbounds r' hr').1, (hbounds r' hr').2⟩

end

theorem Env.ofReadings_from {key : ChainKey} {ids : Finset ProviderId} {ms : List Moment} {rs : List Reading}
    {last : Reading} (hrs : ∀ r ∈ rs, r.From key ids ms) (hlast : last.From key ids ms) (n : Nat) :
    ((Env.ofReadings rs last).reading n).From key ids ms := by
  rw [Env.reading_ofReadings, List.getD_eq_getElem?_getD]
  cases hget : rs[n]? with
  | none => exact hlast
  | some r => exact hrs r (List.mem_of_getElem? hget)

theorem Env.ofReadings_clock {rs : List Reading} {last : Reading}
    (hrs : rs.Pairwise fun r r' => r.now ≤ r'.now) (hlast : ∀ r ∈ rs, r.now ≤ last.now) {i j : Nat} (hle : i ≤ j) :
    (Env.ofReadings rs last).now i ≤ (Env.ofReadings rs last).now j := by
  simp only [Env.ofReadings, List.getD_eq_getElem?_getD]
  by_cases hj : j < rs.length
  · rw [List.getElem?_eq_getElem hj, List.getElem?_eq_getElem (Nat.lt_of_le_of_lt hle hj)]
    rcases Nat.eq_or_lt_of_le hle with rfl | hlt
    · exact Nat.le_refl _
    · exact List.pairwise_iff_getElem.mp hrs i j _ hj hlt
  · rw [List.getElem?_eq_none (Nat.le_of_not_lt hj)]
    cases hget : rs[i]? with
    | none => exact Nat.le_refl _
    | some r => exact hlast r (List.mem_of_getElem? hget)

/-! ### Sample runs -/

/-- Every call fails at once. -/
def failingInput : Input where
  rng := firstIndex
  upstream _ := ⟨.failed 0 "connection refused", .never⟩

/-- Every call is answered at once. -/
def answeringInput : Input where
  rng := firstIndex
  upstream _ := ⟨.arrived 0 ⟨200, "200 OK"⟩ [], .complete 0 []⟩

theorem answer_failing (memory : ServerMemory) (op : ChainAccess) : (answer (memory, failingInput) op).isSome := by
  obtain ⟨key, access⟩ := op
  cases access with
  | forward provider timeout =>
    have hforward : forwardToProvider (failingInput.upstream provider) timeout =
        some (0, .error "connection refused") := by
      simp [forwardToProvider, failingInput]
    simp only [answer, ServerMemory.exec, hforward, Option.map_some]
    rfl
  | _ => rfl

/-- A circuit that opens at the first failure, for 1 ms. -/
def fragileConfig : ProxyConfig :=
  { smallConfig with
    providers := [
      { id := ⟨"a"⟩
        url := "https://a.example"
        circuitBreaker := { failureThreshold := some 1, resetTimeoutMs := some 1 } }] }

def overrideJob : Tasks.Job := ⟨⟨{ providerOverride := some ⟨"a"⟩ }, none, .null⟩, "0"⟩

/-- A request checks the provider, starts on it, fails and reports the failure. -/
def failingRequest (id : Nat) : List (Action Tasks.Job Input External) :=
  .spawn id overrideJob :: List.replicate 4 (.access id failingInput)

theorem failingRequest_run : ∃ state chain w t, ProxyState.new id literalGlobs fragileConfig = .ok state ∧
    state.chains.lookup ⟨"default"⟩ = some chain ∧ state.resolveChain id t.job.call.chainId = .ok chain ∧
    run (server literalGlobs id doublingTower state).step (.start (state.memory 0)) (failingRequest 0) = some w ∧
    w.tasks 0 = some t ∧ t.log.length = 4 ∧
    ∃ before m handle timeout after, t.log = before ++ (m, ⟨"default"⟩, .forward handle timeout) :: after :=
  ⟨_, _, _, _, rfl, rfl, rfl, rfl, rfl, rfl, _ :: _ :: [], _, _, _, _, rfl⟩

theorem failingRequest_reached : ∃ state chain w t, ProxyState.new id literalGlobs fragileConfig = .ok state ∧
    state.chains.lookup ⟨"default"⟩ = some chain ∧ state.resolveChain id t.job.call.chainId = .ok chain ∧
    Reached (server literalGlobs id doublingTower state).step (fun _ _ => True) (.start (state.memory 0)) w ∧
    w.tasks 0 = some t ∧ t.log.length = 4 := by
  obtain ⟨state, chain, w, t, hstate, hchain, hresolve, hrun, ht, hlen, -⟩ := failingRequest_run
  exact ⟨state, chain, w, t, hstate, hchain, hresolve,
    reached_of_run_of_forall (fun _ _ _ => trivial) hrun, ht, hlen⟩

def pairedProvider (name : String) : ProviderConfig where
  id := ⟨name⟩
  url := "https://" ++ name ++ ".example"
  circuitBreaker := { failureThreshold := some 1, resetTimeoutMs := some 1 }

/-- Two chains that share the provider `b`. -/
def pairedConfig : ProxyConfig :=
  { smallConfig with
    strategy := .roundRobin
    maxRetries := 2
    providers := ["a", "b", "c"].map pairedProvider
    chains := HashMap.collect [("one", { providers := [⟨"a"⟩, ⟨"b"⟩] }), ("two", { providers := [⟨"b"⟩, ⟨"c"⟩] })]
    defaultChain := some "one" }

example : validate pairedConfig = .ok () := by rfl

def jobOn (chain : String) : Tasks.Job := ⟨⟨{}, some chain, .null⟩, "0"⟩

def deadProbe (chain name : String) : Action Tasks.Job Input External :=
  .outside (.probed ⟨chain⟩ (pairedProvider name).intoHandle fun _ => ⟨.transport "connection refused", 0⟩)

def liveProbe (chain name : String) : Action Tasks.Job Input External :=
  .outside (.probed ⟨chain⟩ (pairedProvider name).intoHandle fun _ =>
    ⟨.answer ⟨200, "200 OK"⟩ (some (.object [("result", .string "0x1")])) "", Duration.fromMillis 3⟩)

/-- Requests on both chains while probes end, one of these in the middle of an iteration over the health map. The
    first request fails on `a` and goes on to `b`; the last one finds the circuit of `a` open. -/
def busyRun : List (Action Tasks.Job Input External) :=
  [deadProbe "one" "a", liveProbe "one" "b", liveProbe "two" "c", .spawn 0 (jobOn "one"), .spawn 1 (jobOn "two"),
    .access 0 failingInput, deadProbe "one" "b", .access 1 failingInput] ++
    List.replicate 10 (.access 0 failingInput) ++ List.replicate 10 (.access 1 answeringInput) ++
    List.replicate 11 (.access 0 answeringInput) ++ [.spawn 2 (jobOn "one")] ++
    List.replicate 19 (.access 2 answeringInput)

end Rpceth
