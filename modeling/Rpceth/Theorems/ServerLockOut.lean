import Rpceth.Theorems.ServerTraffic

/-! Lock-out in the running server: which drop of a request strands a provider, and that nothing the server does
    later brings a provider back that is locked out. -/

namespace Rpceth
open Lib Program

/-! ### In the traffic -/

namespace Traffic

/-- The half-open period of `p` admits no attempt, and there is none whose outcome could end it. -/
structure LockedOut (s : Traffic) (p : ProviderId) : Prop where
  exhausted : s.exhausted p = true
  idle : s.attemptsOn p = []
  unchecked : ∀ r, (r, p) ∉ s.checked

variable {s t : Traffic} {p : ProviderId} {op : Op}

theorem exhausted_congr (h : t.circuit p = s.circuit p) : t.exhausted p = s.exhausted p := by
  rw [exhausted, exhausted, h]

theorem recovers_new (handles : List ProviderHandle) (global : CircuitBreakerConfig) (now : Instant)
    (p : ProviderId) : (new handles global now).Recovers p := by
  rw [recovers_iff]
  intro hex
  unfold exhausted at hex
  split at hex
  · rename_i hc
    cases circuit_new hc
  · cases hex

theorem LockedOut.provider_ne (h : s.LockedOut p) {a : Attempt} (ha : a ∈ s.inFlight) : a.provider ≠ p := by
  intro heq
  have hmem : a ∈ s.attemptsOn p := List.mem_filter.mpr ⟨ha, beq_iff_eq.mpr heq⟩
  rw [h.idle] at hmem
  cases hmem

theorem LockedOut.step (h : s.LockedOut p) (hs : s.step op = some t) : t.LockedOut p := by
  cases Step.of_step hs with
  | tick elapsed => exact ⟨h.exhausted, h.idle, h.unchecked⟩
  | check r q idle available =>
    refine ⟨h.exhausted, h.idle, fun r' hmem => ?_⟩
    rcases List.mem_cons.mp hmem with heq | hmem
    · obtain ⟨rfl, rfl⟩ := Prod.mk.inj heq
      rw [not_available_of_exhausted h.exhausted] at available
      cases available
    · exact h.unchecked r' hmem
  | start r q checked =>
    have hne : p ≠ q := fun heq => h.unchecked r (heq ▸ checked)
    refine ⟨?_, ?_, fun r' hmem => h.unchecked r' (List.mem_of_mem_erase hmem)⟩
    · rw [exhausted_congr (circuit_started_ne hne s r), h.exhausted]
    · rw [attemptsOn_started_ne (Ne.symm hne), h.idle]
  | success a ha | failure a ha =>
    have hne := h.provider_ne ha
    refine ⟨?_, ?_, h.unchecked⟩
    · refine (exhausted_congr ?_).trans h.exhausted
      exact CircuitBreaker.lookup_updateState_ne (Ne.symm hne) _
    · rw [attemptsOn_ended_ne hne, h.idle]
  | cancel a ha =>
    refine ⟨h.exhausted, ?_, h.unchecked⟩
    rw [attemptsOn_ended_ne (h.provider_ne ha), h.idle]

end Traffic

/-! ### In the server -/

section
variable (decode : String → String) (state : ProxyState) (key : ChainKey) (p : ProviderId)

/-- The circuit of `p` is half-open and admits no attempt. -/
def Exhausted (w : Server) : Prop :=
  ∃ config f n, (w.memory.chains key).breaker.entries.lookup p = some ⟨config, .halfOpen f n⟩ ∧ config.halfOpenProbe ≤ n

/-- The action drops the only request that waits for `p`, while the circuit admits no other. -/
def Strands (w : Server) (action : Action Tasks.Job Input External) : Prop :=
  ∃ id, action = .drop id ∧ (∀ i, flyingBy decode state key w i = some p ↔ i = id) ∧ Exhausted key p w

structure LockedOut (w : Server) : Prop where
  exhausted : Exhausted key p w
  idle : ∀ id, flyingBy decode state key w id ≠ some p
  unchecked : ∀ id, checkedBy decode state key w id ≠ some p

end

section
variable {decode : String → String} {state : ProxyState} {key : ChainKey} {p : ProviderId} {w : Server} {s : Traffic}

theorem IsTraffic.exhausted_iff (h : IsTraffic decode state key w s) : s.exhausted p = true ↔ Exhausted key p w := by
  unfold Traffic.exhausted Traffic.circuit Exhausted
  rw [h.breaker]
  constructor
  · intro hex
    split at hex
    · rename_i config f n hc
      exact ⟨config, f, n, hc, of_decide_eq_true hex⟩
    · cases hex
  · rintro ⟨config, f, n, hc, hle⟩
    rw [hc]
    exact decide_eq_true hle

theorem IsTraffic.attemptsOn_iff (h : IsTraffic decode state key w s) :
    s.attemptsOn p = [] ↔ ∀ id, flyingBy decode state key w id ≠ some p := by
  unfold Traffic.attemptsOn
  rw [List.filter_eq_nil_iff]
  constructor
  · intro hnone id hflying
    obtain ⟨a, ha, -, hp⟩ := h.attempt hflying
    exact hnone a ha (beq_iff_eq.mpr hp)
  · intro hnone a ha hp
    exact hnone a.request ((h.flying a.request p).mp ⟨a, ha, rfl, beq_iff_eq.mp hp⟩)

theorem IsTraffic.lockedOut_iff (h : IsTraffic decode state key w s) :
    s.LockedOut p ↔ LockedOut decode state key p w := by
  constructor
  · rintro ⟨hex, hidle, hunchecked⟩
    exact ⟨h.exhausted_iff.mp hex, h.attemptsOn_iff.mp hidle, fun id hc => hunchecked id ((h.checked id p).mpr hc)⟩
  · rintro ⟨hex, hidle, hunchecked⟩
    exact ⟨h.exhausted_iff.mpr hex, h.attemptsOn_iff.mpr hidle, fun id hc => hunchecked id ((h.checked id p).mp hc)⟩

theorem IsTraffic.strands {action : Action Tasks.Job Input External} {op : Op} (h : IsTraffic decode state key w s)
    (hacts : Acts action op) (hstrands : Traffic.strands p s op = true) : Strands decode state key p w action := by
  cases op with
  | cancel a =>
    obtain ⟨hone, hex⟩ := Bool.and_eq_true_iff.mp hstrands
    have hone : s.attemptsOn p = [a] := of_decide_eq_true hone
    have hmem : ∀ b, b ∈ s.inFlight ∧ b.provider = p ↔ b = a := by
      intro b
      have hone' : b ∈ s.attemptsOn p ↔ b = a := by rw [hone, List.mem_singleton]
      rwa [Traffic.attemptsOn, List.mem_filter, beq_iff_eq] at hone'
    refine ⟨a.request, hacts, fun i => ?_, h.exhausted_iff.mp hex⟩
    rw [← h.flying]
    constructor
    · rintro ⟨b, hb, rfl, hp⟩
      rw [(hmem b).mp ⟨hb, hp⟩]
    · rintro rfl
      obtain ⟨ha, hp⟩ := (hmem a).mpr rfl
      exact ⟨a, ha, rfl, hp⟩
  | tick | check | start | success | failure => cases hstrands

end

section Server
variable {globs : Globs} {decode : String → String} {tower : Tower} {config : ProxyConfig} {state : ProxyState}
  {ok : Server → Action Tasks.Job Input External → Prop} {now : Instant} {w w' : Server}
  {action : Action Tasks.Job Input External} {key : ChainKey} {chain : ChainRuntime} {p : ProviderId}

/-- A step keeps a provider locked out, and makes no call to it. -/
theorem LockedOut.step (hstate : ProxyState.new decode globs config = .ok state)
    (hchain : state.chains.lookup key = some chain)
    (h : Reached (server globs decode tower state).step ok (.start (state.memory now)) w)
    (hlocked : LockedOut decode state key p w) (hs : (server globs decode tower state).step w action = some w') :
    LockedOut decode state key p w' ∧ ∀ id t', w'.tasks id = some t' → ∀ entry ∈ t'.log, ∀ handle timeout,
      entry.2 = (key, .forward handle timeout) → handle.id = p → ∃ t, w.tasks id = some t ∧ entry ∈ t.log := by
  constructor
  · obtain ⟨s, -, htraffic⟩ : ∃ s, Reached Traffic.step (fun _ _ => True) _ s ∧ IsTraffic decode state key w s :=
      traffic_run hstate .start (isTraffic_start hstate hchain now) (fun _ _ _ _ _ _ _ => trivial) h
    have hlocked' := htraffic.lockedOut_iff.mpr hlocked
    rcases traffic_step hstate h hs htraffic with hstay | ⟨op, s', -, hstep, htraffic'⟩
    · exact hstay.lockedOut_iff.mp hlocked'
    · exact htraffic'.lockedOut_iff.mp (hlocked'.step hstep)
  · intro id t' ht' entry hentry handle timeout heq hp
    cases Runtime.Step.of_step hs with
    | spawn i job free =>
      rcases World.tasks_put_eq_some ht' with ⟨-, rfl⟩ | ⟨-, ht⟩
      · cases hentry
      · exact ⟨t', ht, hentry⟩
    | access i input job op next log a m found executed =>
      rcases World.tasks_put_eq_some ht' with ⟨rfl, rfl⟩ | ⟨-, ht⟩
      · rcases List.mem_append.mp hentry with hentry | hentry
        · exact ⟨_, found, hentry⟩
        -- The request would have to have started on the provider.
        · obtain rfl := List.mem_singleton.mp hentry
          obtain rfl : op = (key, .forward handle timeout) := heq
          obtain ⟨chain', hchain', hkey, hphase, -⟩ := (task_progress hstate h found).1
          have hon : job.on decode state key = true := (on_iff hchain').mpr hkey.symm
          refine absurd ?_ (hlocked.idle id)
          simp [flyingBy, found, flyingOf, hon, hphase, Phase.inFlight, hp]
      · exact ⟨t', ht, hentry⟩
    | drop i job op next log found suspends =>
      rcases World.tasks_put_eq_some ht' with ⟨rfl, rfl⟩ | ⟨-, ht⟩
      · exact ⟨_, found, hentry⟩
      · exact ⟨t', ht, hentry⟩
    | outside event m changed => exact ⟨t', ht', hentry⟩

theorem Exhausted.not_available {w : Server} (h : Exhausted key p w) (later : Instant) :
    (w.memory.chains key).breaker.isAvailable later p = false := by
  obtain ⟨config, f, n, hlookup, hle⟩ := h
  simp only [CircuitBreaker.isAvailable, hlookup, InnerState.isAvailable, decide_eq_false_iff_not, UInt32.not_lt]
  exact hle

end Server

/-- A provider that is locked out of a chain in a running server stays locked out, whatever happens next: no time
    makes it available, and no request calls it through this chain any more. -/
theorem lockedOut_forever (globs : Globs) (decode : String → String) (tower : Tower) (config : ProxyConfig)
    (state : ProxyState) (hstate : ProxyState.new decode globs config = .ok state)
    (ok : Server → Action Tasks.Job Input External → Prop) (now : Instant) (w : Server)
    (h : Reached (server globs decode tower state).step ok (.start (state.memory now)) w) (key : ChainKey)
    (chain : ChainRuntime) (hchain : state.chains.lookup key = some chain) (p : ProviderId)
    (hlocked : LockedOut decode state key p w) (w' : Server)
    (h' : Reached (server globs decode tower state).step ok w w') :
    LockedOut decode state key p w' ∧
      (∀ later, (w'.memory.chains key).breaker.isAvailable later p = false) ∧
      ∀ id t', w'.tasks id = some t' → ∀ entry ∈ t'.log, ∀ handle timeout,
        entry.2 = (key, .forward handle timeout) → handle.id = p → ∃ t, w.tasks id = some t ∧ entry ∈ t.log := by
  induction h' with
  | start =>
    exact ⟨hlocked, fun later => hlocked.exhausted.not_available later, fun id t ht entry hentry _ _ _ _ =>
      ⟨t, ht, hentry⟩⟩
  | step hr hok hs ih =>
    obtain ⟨hlocked₁, -, hcalls⟩ := ih
    obtain ⟨hlocked₂, hnew⟩ := hlocked₁.step hstate hchain (h.trans hr) hs
    refine ⟨hlocked₂, fun later => hlocked₂.exhausted.not_available later, ?_⟩
    intro id t' ht' entry hentry handle timeout heq hp
    obtain ⟨t₁, ht₁, hentry₁⟩ := hnew id t' ht' entry hentry handle timeout heq hp
    exact hcalls id t₁ ht₁ entry hentry₁ handle timeout heq hp

/-! ### Sample runs -/

/-- The requests have the numbers below `n`. -/
def spawnsBelow (n : Nat) : Action Tasks.Job Input External → Bool
  | .spawn id _ => decide (id < n)
  | _ => true

/-- So from `n` on there are none. -/
theorem tasks_of_le {globs : Globs} {decode : String → String} {tower : Tower} {state : ProxyState}
    {memory : ServerMemory} {w : Server} {n i : Nat}
    (h : Reached (server globs decode tower state).step (fun _ action => spawnsBelow n action = true)
      (.start memory) w) (hle : n ≤ i) : w.tasks i = none := by
  cases ht : w.tasks i with
  | none => rfl
  | some t =>
    obtain ⟨_, hspawn⟩ := Runtime.job_admitted h ht
    exact absurd (of_decide_eq_true hspawn) (Nat.not_lt_of_le hle)

/-- A request fails and opens the circuit, and of the two probes after it each one waits. -/
def waitingProbes : List (Action Tasks.Job Input External) :=
  let probe (id : Nat) : List (Action Tasks.Job Input External) :=
    [.spawn id overrideJob, .access id failingInput, .access id failingInput]
  failingRequest 0 ++ [.outside (.tick 1000000)] ++ probe 1 ++ [.drop 1] ++ probe 2

/-- A request that comes later asks for the same provider. -/
def laterRequest : List (Action Tasks.Job Input External) :=
  [.outside (.tick 1000000000), .spawn 3 overrideJob] ++ List.replicate 4 (.access 3 answeringInput)

/-- Both probes are dropped, and the later request finds no provider. -/
theorem lockedOut_forever_dropped : ∃ (state : ProxyState) (w w' : Server) (t : RequestTask),
    LockedOut id state ⟨"default"⟩ ⟨"a"⟩ w ∧
      Reached (server literalGlobs id doublingTower state).step (fun _ _ => True) w w' ∧
      w.memory.now < w'.memory.now ∧ (w.tasks 3 = none ∧ w'.tasks 3 = some t ∧ t.log.length = 4) ∧
      (∀ later, (w'.memory.chains ⟨"default"⟩).breaker.isAvailable later ⟨"a"⟩ = false) ∧
      ∀ entry ∈ t.log, ∀ handle timeout, entry.2 = (⟨"default"⟩, .forward handle timeout) → handle.id ≠ ⟨"a"⟩ := by
  have hrun : ∃ state chain, ProxyState.new id literalGlobs fragileConfig = .ok state ∧
      state.chains.lookup ⟨"default"⟩ = some chain ∧
      (run (guarded (server literalGlobs id doublingTower state).step fun _ action => spawnsBelow 3 action = true)
        (.start (state.memory 0)) (waitingProbes ++ [.drop 2])).any (fun w =>
          decide ((w.memory.chains ⟨"default"⟩).breaker.entries.lookup ⟨"a"⟩ = some ⟨⟨1, 1000000, 1⟩, .halfOpen 1 1⟩ ∧
            ∀ i < 3, flyingBy id state ⟨"default"⟩ w i = none ∧ checkedBy id state ⟨"default"⟩ w i = none) &&
          (run (guarded (server literalGlobs id doublingTower state).step fun _ _ => True) w laterRequest).any
            fun w' => decide (w.memory.now < w'.memory.now) &&
              (w'.tasks 3).any fun t => decide (t.log.length = 4)) = true :=
    ⟨_, _, rfl, rfl, by decide +kernel⟩
  obtain ⟨state, chain, hstate, hchain, hrun⟩ := hrun
  obtain ⟨w, h, hw⟩ := exists_reached_of_run hrun
  obtain ⟨hat, hlater⟩ := Bool.and_eq_true_iff.mp hw
  obtain ⟨hcircuit, hidle⟩ := of_decide_eq_true hat
  obtain ⟨w', h', hw'⟩ := exists_reached_of_run hlater
  obtain ⟨hnow, htask⟩ := Bool.and_eq_true_iff.mp hw'
  obtain ⟨t, ht, hlen⟩ := (Option.any_eq_true _ _).mp htask
  have hnone : ∀ i, flyingBy id state ⟨"default"⟩ w i = none ∧ checkedBy id state ⟨"default"⟩ w i = none := by
    intro i
    rcases Nat.lt_or_ge i 3 with hlt | hge
    · exact hidle i hlt
    · simp [flyingBy, checkedBy, tasks_of_le h hge]
  have hlocked : LockedOut id state ⟨"default"⟩ ⟨"a"⟩ w :=
    ⟨⟨_, _, _, hcircuit, by decide⟩, fun i => by simp [(hnone i).1], fun i => by simp [(hnone i).2]⟩
  have hfree : w.tasks 3 = none := tasks_of_le h (Nat.le_refl 3)
  obtain ⟨-, hshut, hcalls⟩ := lockedOut_forever literalGlobs id doublingTower fragileConfig state hstate
    (fun _ _ => True) 0 w (h.mono fun _ _ _ => trivial) _ chain hchain ⟨"a"⟩ hlocked w' h'
  refine ⟨state, w, w', t, hlocked, h', of_decide_eq_true hnow, ⟨hfree, ht, of_decide_eq_true hlen⟩, hshut, ?_⟩
  intro entry hentry handle timeout heq hid
  obtain ⟨t₀, ht₀, -⟩ := hcalls 3 t ht entry hentry handle timeout heq hid
  rw [hfree] at ht₀
  cases ht₀

/-- Every provider recovers in every reached state of a server in which no request is dropped so that the provider
    is stranded: as long as no request waits for it, there is a time at which it is available. After a drop that
    strands it there is none. -/
theorem server_recovers (globs : Globs) (decode : String → String) (tower : Tower) (config : ProxyConfig)
    (state : ProxyState) (hstate : ProxyState.new decode globs config = .ok state) (now : Instant) (key : ChainKey)
    (chain : ChainRuntime) (hchain : state.chains.lookup key = some chain) (p : ProviderId) :
    (∀ w, Reached (server globs decode tower state).step (fun w action => ¬Strands decode state key p w action)
        (.start (state.memory now)) w → (∀ id, flyingBy decode state key w id ≠ some p) →
      ∃ later, w.memory.now ≤ later ∧ (w.memory.chains key).breaker.isAvailable later p = true) ∧
    ∀ w action w', Reached (server globs decode tower state).step (fun _ _ => True) (.start (state.memory now)) w →
      (server globs decode tower state).step w action = some w' → Strands decode state key p w action →
      (∀ id, flyingBy decode state key w' id ≠ some p) ∧
        ∀ later, (w'.memory.chains key).breaker.isAvailable later p = false := by
  constructor
  · intro w h hidle
    have hok : ∀ w s action op, ¬Strands decode state key p w action → IsTraffic decode state key w s →
        Acts action op → Traffic.strands p s op = false :=
      fun w s action op hnot htraffic hacts => Bool.eq_false_iff.mpr fun hs => hnot (htraffic.strands hacts hs)
    obtain ⟨s, hs, htraffic⟩ := traffic_run hstate .start (isTraffic_start hstate hchain now) hok h
    have hrecovers : s.Recovers p :=
      hs.invariant (I := (·.Recovers p)) (Traffic.recovers_new _ _ now p) fun _ _ _ hrec hop hstep =>
        Traffic.step_recovers hrec hop hstep
    obtain ⟨later, hle, havailable⟩ := hrecovers (htraffic.attemptsOn_iff.mpr hidle)
    rw [htraffic.breaker] at havailable
    rw [htraffic.now] at hle
    exact ⟨later, hle, havailable⟩
  · rintro w action w' h hs ⟨id, rfl, honly, hex⟩
    cases Runtime.Step.of_step hs with
    | drop _ job op next log found suspends =>
      refine ⟨fun i hflying => ?_, fun later => Exhausted.not_available hex later⟩
      rw [flyingBy_put] at hflying
      by_cases hi : i = id
      · subst hi
        simp [flyingOf] at hflying
      · rw [Function.update_of_ne hi] at hflying
        exact hi ((honly i).mp hflying)

/-- None of them is dropped, either. -/
def undropped (n : Nat) : Action Tasks.Job Input External → Bool
  | .drop _ => false
  | action => spawnsBelow n action

/-- A request opens the circuit and the next one, after the timeout, opens it again. -/
def reopenings : List (Action Tasks.Job Input External) :=
  failingRequest 0 ++ [.outside (.tick 1000000)] ++ failingRequest 1

/-- A provider that is shut out after two failures comes back, and one whose last probe is dropped does not. -/
theorem server_recovers_reopened : ∃ (state : ProxyState) (w v v' : Server),
    (Reached (server literalGlobs id doublingTower state).step
        (fun w action => ¬Strands id state ⟨"default"⟩ ⟨"a"⟩ w action) (.start (state.memory 0)) w ∧
      (w.memory.chains ⟨"default"⟩).breaker.isAvailable w.memory.now ⟨"a"⟩ = false ∧
      ∃ later, w.memory.now ≤ later ∧ (w.memory.chains ⟨"default"⟩).breaker.isAvailable later ⟨"a"⟩ = true) ∧
    Reached (server literalGlobs id doublingTower state).step (fun _ _ => True) (.start (state.memory 0)) v ∧
      Strands id state ⟨"default"⟩ ⟨"a"⟩ v (.drop 2) ∧
      (server literalGlobs id doublingTower state).step v (.drop 2) = some v' ∧
      ∀ later, (v'.memory.chains ⟨"default"⟩).breaker.isAvailable later ⟨"a"⟩ = false := by
  have hrun : ∃ state chain, ProxyState.new id literalGlobs fragileConfig = .ok state ∧
      state.chains.lookup ⟨"default"⟩ = some chain ∧
      (run (guarded (server literalGlobs id doublingTower state).step fun _ action => undropped 2 action = true)
        (.start (state.memory 0)) reopenings).any (fun w : Server =>
          decide ((w.memory.chains ⟨"default"⟩).breaker.isAvailable w.memory.now ⟨"a"⟩ = false ∧
            ∀ i : Nat, i < 2 → flyingBy id state ⟨"default"⟩ w i = none)) = true ∧
      (run (guarded (server literalGlobs id doublingTower state).step fun _ action => spawnsBelow 3 action = true)
        (.start (state.memory 0)) waitingProbes).any (fun v : Server =>
          decide ((v.memory.chains ⟨"default"⟩).breaker.entries.lookup ⟨"a"⟩ = some ⟨⟨1, 1000000, 1⟩, .halfOpen 1 1⟩ ∧
            ∀ i : Nat, i < 3 → (flyingBy id state ⟨"default"⟩ v i = some ⟨"a"⟩ ↔ i = 2)) &&
          ((server literalGlobs id doublingTower state).step v (.drop 2)).isSome) = true :=
    ⟨_, _, rfl, rfl, by decide +kernel, by decide +kernel⟩
  obtain ⟨state, chain, hstate, hchain, hreopened, hwaiting⟩ := hrun
  obtain ⟨hback, hshut⟩ := server_recovers literalGlobs id doublingTower fragileConfig state hstate 0 _ chain hchain
    ⟨"a"⟩
  obtain ⟨w, hw, hclosed⟩ := exists_reached_of_run hreopened
  obtain ⟨hnow, hidle⟩ := of_decide_eq_true hclosed
  obtain ⟨v, hv, hprobing⟩ := exists_reached_of_run hwaiting
  obtain ⟨hat, hdrop⟩ := Bool.and_eq_true_iff.mp hprobing
  obtain ⟨hcircuit, hlast⟩ := of_decide_eq_true hat
  obtain ⟨v', hstep⟩ := Option.isSome_iff_exists.mp hdrop
  have hstrands : Strands id state ⟨"default"⟩ ⟨"a"⟩ v (.drop 2) := by
    refine ⟨2, rfl, fun i => ?_, ⟨_, _, _, hcircuit, by decide⟩⟩
    rcases Nat.lt_or_ge i 3 with hlt | hge
    · exact hlast i hlt
    · have hne : i ≠ 2 := by omega
      simp [flyingBy, tasks_of_le hv hge, hne]
  have hkept : ∀ action, undropped 2 action = true →
      spawnsBelow 2 action = true ∧ ∀ w, ¬Strands id state ⟨"default"⟩ ⟨"a"⟩ w action := by
    intro action hok
    cases action with
    | drop i => cases hok
    | _ =>
      refine ⟨hok, fun w hstrands => ?_⟩
      obtain ⟨_, hdropped, -⟩ := hstrands
      cases hdropped
  have hw' := hw.mono fun w action hok => (hkept action hok).2 w
  have hnone : ∀ i, flyingBy id state ⟨"default"⟩ w i ≠ some ⟨"a"⟩ := by
    intro i
    rcases Nat.lt_or_ge i 2 with hlt | hge
    · simp [hidle i hlt]
    · simp [flyingBy, tasks_of_le (hw.mono fun _ action hok => (hkept action hok).1) hge]
  have htrue : Reached (server literalGlobs id doublingTower state).step (fun _ _ => True) _ v :=
    hv.mono fun _ _ _ => trivial
  exact ⟨state, w, v, v', ⟨hw', hnow, hback w hw' hnone⟩, htrue, hstrands, hstep, (hshut v _ v' htrue hstep hstrands).2⟩

end Rpceth
