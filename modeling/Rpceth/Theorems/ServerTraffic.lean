import Rpceth.Theorems.HalfOpen
import Rpceth.Theorems.ServerHistory

/-! The requests of a chain are the traffic of its circuit breaker: what the server does to one chain is a run of
    `Server/Traffic.lean`, in which the steps that the breaker does not see are left out. -/

namespace Rpceth
open Lib Program

/-! ### What a traffic shows -/

namespace Traffic

/-- The traffic has this breaker and clock; a request has checked what `checked` says, and `flying` says what is in
    flight. -/
structure Shows (s : Traffic) (breaker : CircuitBreaker) (now : Instant) (checked flying : Nat → Option ProviderId) :
    Prop where
  breaker : s.breaker = breaker
  now : s.now = now
  checked : ∀ id p, (id, p) ∈ s.checked ↔ checked id = some p
  flying : ∀ id p, (∃ a ∈ s.inFlight, a.request = id ∧ a.provider = p) ↔ flying id = some p
  checked_once : (s.checked.map Prod.fst).Nodup
  flying_once : (s.inFlight.map Attempt.request).Nodup

section
variable {s : Traffic} {breaker : CircuitBreaker} {now : Instant} {checked flying : Nat → Option ProviderId}
  {id : Nat} {p : ProviderId}

theorem shows_new (handles : List ProviderHandle) (global : CircuitBreakerConfig) (now : Instant) :
    (new handles global now).Shows (.new handles global) now (fun _ => none) fun _ => none := by
  refine ⟨rfl, rfl, ?_, ?_, List.nodup_nil, List.nodup_nil⟩ <;> simp [new]

theorem Shows.tick (h : s.Shows breaker now checked flying) (elapsed : Duration) :
    Shows { s with now := s.now + elapsed } breaker (now + elapsed) checked flying :=
  ⟨h.breaker, by simp [h.now], h.checked, h.flying, h.checked_once, h.flying_once⟩

theorem Shows.not_busy (h : s.Shows breaker now checked flying) (hchecked : checked id = none)
    (hflying : flying id = none) : s.busy id = false := by
  unfold busy
  rw [Bool.or_eq_false_iff]
  constructor
  · refine List.any_eq_false.mpr fun ⟨i, q⟩ hmem heq => ?_
    obtain rfl : i = id := beq_iff_eq.mp heq
    have hsome := (h.checked i q).mp hmem
    rw [hchecked] at hsome
    cases hsome
  · refine List.any_eq_false.mpr fun a ha heq => ?_
    have hsome := (h.flying id a.provider).mp ⟨a, ha, beq_iff_eq.mp heq, rfl⟩
    rw [hflying] at hsome
    cases hsome

theorem Shows.check (h : s.Shows breaker now checked flying) (hchecked : checked id = none)
    (hflying : flying id = none) (havailable : breaker.isAvailable now p = true) :
    ∃ s', s.step (.check id p) = some s' ∧ s'.Shows breaker now (Function.update checked id (some p)) flying := by
  refine ⟨{ s with checked := (id, p) :: s.checked }, ?_, h.breaker, h.now, ?_, h.flying, ?_, h.flying_once⟩
  · simp [step, h.not_busy hchecked hflying, h.breaker, h.now, havailable]
  · intro i q
    by_cases hi : i = id
    · subst hi
      have hnot : (i, q) ∉ s.checked := by simp [h.checked, hchecked]
      simp [hnot, eq_comm]
    · simp [hi, h.checked]
  · refine List.nodup_cons.mpr ⟨fun hmem => ?_, h.checked_once⟩
    obtain ⟨⟨i, q⟩, hin, heq⟩ := List.mem_map.mp hmem
    obtain rfl : i = id := heq
    have hsome := (h.checked i q).mp hin
    rw [hchecked] at hsome
    cases hsome

theorem Shows.start (h : s.Shows breaker now checked flying) (hchecked : checked id = some p)
    (hflying : flying id = none) :
    ∃ s', s.step (.start id p) = some s' ∧ s'.Shows (breaker.onRequestStart now p) now
      (Function.update checked id none) (Function.update flying id (some p)) := by
  have hmem : (id, p) ∈ s.checked := (h.checked id p).mpr hchecked
  refine ⟨s.started id p, if_pos hmem, ?_, h.now, ?_, ?_, ?_, ?_⟩
  · simp [started, h.breaker, h.now]
  · intro i q
    have hnodup : s.checked.Nodup := h.checked_once.of_map
    rw [started, hnodup.mem_erase_iff, h.checked]
    by_cases hi : i = id
    · subst hi
      simp [hchecked, eq_comm]
    · simp [hi]
  · intro i q
    by_cases hi : i = id
    · subst hi
      have hnone : ¬∃ a ∈ s.inFlight, a.request = i ∧ a.provider = q := by simp [h.flying, hflying]
      simp only [started, List.mem_cons, exists_eq_or_imp, true_and, Function.update_self, Option.some.injEq, hnone,
        or_false]
    · have hne : id ≠ i := Ne.symm hi
      simp only [started, List.mem_cons, exists_eq_or_imp, hne, false_and, false_or, Function.update_of_ne hi,
        h.flying]
  · exact h.checked_once.sublist (List.erase_sublist.map _)
  · refine List.nodup_cons.mpr ⟨fun hmem => ?_, h.flying_once⟩
    obtain ⟨a, ha, heq⟩ := List.mem_map.mp hmem
    have hsome := (h.flying id a.provider).mp ⟨a, ha, heq, rfl⟩
    rw [hflying] at hsome
    cases hsome

/-- The end of an attempt that is in flight, whatever becomes of the breaker. -/
theorem Shows.ended (h : s.Shows breaker now checked flying) {a : Attempt} (ha : a ∈ s.inFlight)
    (breaker' : CircuitBreaker) :
    (s.ended a breaker').Shows breaker' now checked (Function.update flying a.request none) := by
  have hnodup : s.inFlight.Nodup := h.flying_once.of_map
  refine ⟨rfl, h.now, h.checked, fun i q => ?_, h.checked_once, h.flying_once.sublist (List.erase_sublist.map _)⟩
  have hother : ∀ b ∈ s.inFlight, b ≠ a ↔ b.request ≠ a.request := fun b hb =>
    not_congr ⟨fun heq => heq ▸ rfl, fun heq => List.inj_on_of_nodup_map h.flying_once hb ha heq⟩
  by_cases hi : i = a.request
  · subst hi
    simp only [Traffic.ended, hnodup.mem_erase_iff, Function.update_self, reduceCtorEq, iff_false]
    rintro ⟨b, ⟨hne, hb⟩, heq, -⟩
    exact (hother b hb).mp hne heq
  · rw [Function.update_of_ne hi, ← h.flying]
    refine exists_congr fun b => ?_
    simp only [Traffic.ended, hnodup.mem_erase_iff]
    constructor
    · rintro ⟨⟨-, hb⟩, heq⟩
      exact ⟨hb, heq⟩
    · rintro ⟨hb, rfl, heq⟩
      exact ⟨⟨(hother b hb).mpr hi, hb⟩, rfl, heq⟩

theorem Shows.attempt (h : s.Shows breaker now checked flying) (hflying : flying id = some p) :
    ∃ a ∈ s.inFlight, a.request = id ∧ a.provider = p := (h.flying id p).mpr hflying

theorem Shows.success (h : s.Shows breaker now checked flying) (hflying : flying id = some p) :
    ∃ a s', a.request = id ∧ s.step (.success a) = some s' ∧
      s'.Shows (breaker.onSuccess p) now checked (Function.update flying id none) := by
  obtain ⟨a, ha, rfl, rfl⟩ := h.attempt hflying
  rw [← h.breaker]
  exact ⟨a, _, rfl, if_pos ha, h.ended ha _⟩

theorem Shows.failure (h : s.Shows breaker now checked flying) (hflying : flying id = some p) :
    ∃ a s', a.request = id ∧ s.step (.failure a) = some s' ∧
      s'.Shows (breaker.onFailure now p) now checked (Function.update flying id none) := by
  obtain ⟨a, ha, rfl, rfl⟩ := h.attempt hflying
  rw [← h.breaker, ← h.now]
  exact ⟨a, _, rfl, if_pos ha, h.now ▸ h.ended ha _⟩

theorem Shows.cancel (h : s.Shows breaker now checked flying) (hflying : flying id = some p) :
    ∃ a s', a.request = id ∧ a.provider = p ∧ s.step (.cancel a) = some s' ∧
      s'.Shows breaker now checked (Function.update flying id none) := by
  obtain ⟨a, ha, rfl, rfl⟩ := h.attempt hflying
  exact ⟨a, _, rfl, rfl, if_pos ha, h.breaker ▸ h.ended ha _⟩

end
end Traffic

/-! ### The requests of a chain -/

def Phase.checked? : Phase → Option ProviderId
  | .checked p => some p
  | _ => none

section
variable (decode : String → String) (state : ProxyState) (key : ChainKey)

/-- The job runs on the chain. -/
def Tasks.Job.on (job : Tasks.Job) : Bool :=
  (state.resolveChain decode job.call.chainId).toOption.any fun chain => chain.id == key

/-- The provider that the request has seen available and not started on. -/
def checkedOf (t : RequestTask) : Option ProviderId :=
  if t.job.on decode state key then (progress t.log).phase.checked? else none

/-- The provider that the request waits for. -/
def flyingOf (t : RequestTask) : Option ProviderId :=
  if t.job.on decode state key && !t.dropped then (progress t.log).phase.inFlight else none

def checkedBy (w : Server) (id : Nat) : Option ProviderId := (w.tasks id).bind (checkedOf decode state key)

def flyingBy (w : Server) (id : Nat) : Option ProviderId := (w.tasks id).bind (flyingOf decode state key)

/-- The traffic is that of the chain. -/
def IsTraffic (w : Server) (s : Traffic) : Prop :=
  s.Shows (w.memory.chains key).breaker w.memory.now (checkedBy decode state key w) (flyingBy decode state key w)

end

/-- The action of the server that a step of the traffic is. -/
def Acts (action : Action Tasks.Job Input External) : Op → Prop
  | .tick elapsed => action = .outside (.tick elapsed)
  | .check id _ | .start id _ => ∃ input, action = .access id input
  | .success a | .failure a => ∃ input, action = .access a.request input
  | .cancel a => action = .drop a.request

theorem progress_snoc {log : AccessLog} {m : Moment} {op : ChainAccess} {a : op.2.Answer}
    (h : answer m op = some a) : progress (log ++ [(m, op)]) = (progress log).next op a := by
  rw [progress, Protocol.after, List.foldl_append]
  exact Protocol.advance_some h

section
variable {decode : String → String} {state : ProxyState} {key : ChainKey} {w : Server} {id : Nat} {t : RequestTask}

theorem update_none {places : Nat → Option ProviderId} (h : places id = none) :
    Function.update places id none = places := by
  rw [← h]
  exact Function.update_eq_self _ _

theorem checkedBy_put : checkedBy decode state key (w.put id t) =
    Function.update (checkedBy decode state key w) id (checkedOf decode state key t) := by
  funext i
  by_cases hi : i = id
  · subst hi
    simp [checkedBy]
  · simp [checkedBy, World.tasks_put_ne hi, hi]

theorem flyingBy_put : flyingBy decode state key (w.put id t) =
    Function.update (flyingBy decode state key w) id (flyingOf decode state key t) := by
  funext i
  by_cases hi : i = id
  · subst hi
    simp [flyingBy]
  · simp [flyingBy, World.tasks_put_ne hi, hi]

/-- A request of the chain that has come to `log'` with the memory as it is then. -/
theorem isTraffic_put {s : Traffic} {memory : ServerMemory} :
    IsTraffic decode state key ((w.withMemory memory).put id t) s ↔
      s.Shows (memory.chains key).breaker memory.now
        (Function.update (checkedBy decode state key w) id (checkedOf decode state key t))
        (Function.update (flyingBy decode state key w) id (flyingOf decode state key t)) := by
  unfold IsTraffic
  rw [checkedBy_put, flyingBy_put]
  rfl

/-- A request that stays where it is does not change the traffic, as long as the memory looks the same. -/
theorem IsTraffic.stay {s : Traffic} {memory : ServerMemory} (h : IsTraffic decode state key w s)
    (hchecked : checkedBy decode state key w id = checkedOf decode state key t)
    (hflying : flyingBy decode state key w id = flyingOf decode state key t)
    (hbreaker : (memory.chains key).breaker = (w.memory.chains key).breaker) (hnow : memory.now = w.memory.now) :
    IsTraffic decode state key ((w.withMemory memory).put id t) s := by
  rw [isTraffic_put, ← hchecked, ← hflying, Function.update_eq_self, Function.update_eq_self, hbreaker, hnow]
  exact h

/-- An access on another chain. -/
theorem IsTraffic.elsewhere {s : Traffic} (h : IsTraffic decode state key w s) {job : Tasks.Job}
    (hjob : job.on decode state key = false) {program program' : ChainTask HandlerEnd} {log log' : AccessLog}
    {dropped dropped' : Bool} (found : w.tasks id = some ⟨job, program, log, dropped⟩) {memory : ServerMemory}
    (hbreaker : (memory.chains key).breaker = (w.memory.chains key).breaker) (hnow : memory.now = w.memory.now) :
    IsTraffic decode state key ((w.withMemory memory).put id ⟨job, program', log', dropped'⟩) s := by
  refine h.stay ?_ ?_ hbreaker hnow
  · simp [checkedBy, found, checkedOf, hjob]
  · simp [flyingBy, found, flyingOf, hjob]

/-- An access of a request of the chain is a step of its traffic, or one that the breaker does not see. -/
theorem IsTraffic.access {chain : ChainRuntime} {byId : HashMap ProviderId ProviderHandle} {policy : MethodPolicy}
    {s : Traffic} (h : IsTraffic decode state key w s) {job : Tasks.Job} (hjob : job.on decode state key = true)
    {op : ChainAccess} {next : op.2.Answer → ChainTask HandlerEnd} {log : AccessLog}
    (found : w.tasks id = some ⟨job, .call op next, log, false⟩) {input : Input} {a : op.2.Answer}
    {memory : ServerMemory} (executed : ServerMemory.exec w.memory input op = some (a, memory))
    (hkey : op.1 = key) (hallowed : (progress log).Allows chain byId policy op.2) :
    IsTraffic decode state key
        ((w.withMemory memory).put id ⟨job, next a, log ++ [((w.memory, input), op)], false⟩) s ∨
      ∃ o s', Acts (.access id input) o ∧ s.step o = some s' ∧ IsTraffic decode state key
        ((w.withMemory memory).put id ⟨job, next a, log ++ [((w.memory, input), op)], false⟩) s' := by
  have hanswer : answer (w.memory, input) op = some a := by simp [answer, executed]
  have hbreaker : (memory.chains key).breaker = _ := exec_breaker executed
  have hnow := ServerMemory.exec_now executed
  -- Where the request was and where it is now, in the terms of the traffic.
  have hchecked : checkedBy decode state key w id = (progress log).phase.checked? := by
    simp [checkedBy, found, checkedOf, hjob]
  have hflying : flyingBy decode state key w id = (progress log).phase.inFlight := by
    simp [flyingBy, found, flyingOf, hjob]
  have hchecked' : checkedOf decode state key ⟨job, next a, log ++ [((w.memory, input), op)], false⟩ =
      ((progress log).next op a).phase.checked? := by
    simp [checkedOf, hjob, progress_snoc hanswer]
  have hflying' : flyingOf decode state key ⟨job, next a, log ++ [((w.memory, input), op)], false⟩ =
      ((progress log).next op a).phase.inFlight := by
    simp [flyingOf, hjob, progress_snoc hanswer]
  have stays : (memory.chains key).breaker = (w.memory.chains key).breaker →
      ((progress log).next op a).phase.checked? = (progress log).phase.checked? →
      ((progress log).next op a).phase.inFlight = (progress log).phase.inFlight →
      IsTraffic decode state key
        ((w.withMemory memory).put id ⟨job, next a, log ++ [((w.memory, input), op)], false⟩) s :=
    fun hb hc hf => h.stay (by rw [hchecked, hchecked', hc]) (by rw [hflying, hflying', hf]) hb hnow
  have moves : ∀ {s'}, s'.Shows (memory.chains key).breaker w.memory.now
      (Function.update (checkedBy decode state key w) id ((progress log).next op a).phase.checked?)
      (Function.update (flyingBy decode state key w) id ((progress log).next op a).phase.inFlight) →
      IsTraffic decode state key
        ((w.withMemory memory).put id ⟨job, next a, log ++ [((w.memory, input), op)], false⟩) s' := by
    intro s' hs'
    rw [isTraffic_put, hchecked', hflying', hnow]
    exact hs'
  obtain ⟨key', access⟩ := op
  obtain rfl : key' = key := hkey
  cases access with
  | readEntry | lockCursor | lockRng | delay =>
    exact .inl (stays (by simpa [callOf, Access.call?] using hbreaker) rfl rfl)
  | forward provider timeout =>
    obtain ⟨hphase, -, -⟩ := hallowed
    refine .inl (stays (by simpa [callOf, Access.call?] using hbreaker) ?_ ?_) <;>
      simp [Progress.next, hphase, Phase.checked?, Phase.inFlight]
  | isAvailable p =>
    obtain ⟨⟨hphase, -⟩, -, -⟩ := hallowed
    obtain ⟨havailable, -⟩ := Prod.mk.inj (Option.some.inj executed)
    simp only [callOf, Access.call?, ↓reduceIte, Option.map_none, Option.getD_none] at hbreaker
    change Bool at a
    cases a with
    | false => exact .inl (stays hbreaker rfl rfl)
    | true =>
      rw [hphase] at hchecked hflying
      obtain ⟨s', hstep, hs'⟩ := h.check hchecked hflying havailable
      refine .inr ⟨.check id p, s', ⟨input, rfl⟩, hstep, moves ?_⟩
      simp only [hbreaker, Progress.next, ↓reduceIte, Phase.checked?, Phase.inFlight, update_none hflying]
      exact hs'
  | onRequestStart p =>
    have hphase : (progress log).phase = .checked p := hallowed
    simp only [callOf, Access.call?, ↓reduceIte, Option.map_some, Option.getD_some] at hbreaker
    rw [hphase] at hchecked hflying
    obtain ⟨s', hstep, hs'⟩ := h.start hchecked hflying
    refine .inr ⟨.start id p, s', ⟨input, rfl⟩, hstep, moves ?_⟩
    rw [hbreaker]
    exact hs'
  | onSuccess p =>
    obtain ⟨response, hphase⟩ := hallowed
    simp only [callOf, Access.call?, ↓reduceIte, Option.map_some, Option.getD_some] at hbreaker
    rw [hphase] at hchecked hflying
    obtain ⟨attempt, s', rfl, hstep, hs'⟩ := h.success hflying
    refine .inr ⟨.success attempt, s', ⟨input, rfl⟩, hstep, moves ?_⟩
    simp only [hbreaker, Progress.next, hphase, Phase.checked?, Phase.inFlight, update_none hchecked]
    exact hs'
  | onFailure p =>
    obtain ⟨message, hphase⟩ := hallowed
    simp only [callOf, Access.call?, ↓reduceIte, Option.map_some, Option.getD_some] at hbreaker
    rw [hphase] at hchecked hflying
    obtain ⟨attempt, s', rfl, hstep, hs'⟩ := h.failure hflying
    refine .inr ⟨.failure attempt, s', ⟨input, rfl⟩, hstep, moves ?_⟩
    simp only [hbreaker, Progress.next, hphase, Phase.checked?, Phase.inFlight, update_none hchecked]
    exact hs'

end

/-! ### The simulation -/

section Server
variable {globs : Globs} {decode : String → String} {tower : Tower} {config : ProxyConfig} {state : ProxyState}
  {ok : Server → Action Tasks.Job Input External → Prop} {memory : ServerMemory} {w w' : Server}
  {action : Action Tasks.Job Input External} {key : ChainKey} {p : ProviderId} {s : Traffic}

/-- A request that has not started yet. -/
theorem IsTraffic.spawn (h : IsTraffic decode state key w s) {id : Nat} (free : w.tasks id = none) (job : Tasks.Job)
    (program : ChainTask HandlerEnd) : IsTraffic decode state key (w.put id ⟨job, program, [], false⟩) s := by
  show IsTraffic decode state key ((w.withMemory w.memory).put id _) s
  refine h.stay ?_ ?_ rfl rfl
  · simp [checkedBy, free, checkedOf, progress, Progress.start, Phase.checked?]
  · simp [flyingBy, free, flyingOf, progress, Progress.start, Phase.inFlight]

/-- A request that is dropped where it waits. -/
theorem IsTraffic.drop {chain : ChainRuntime} {byId : HashMap ProviderId ProviderHandle} {policy : MethodPolicy}
    (h : IsTraffic decode state key w s) {job : Tasks.Job} (hjob : job.on decode state key = true) {id : Nat}
    {op : ChainAccess} {next : op.2.Answer → ChainTask HandlerEnd} {log : AccessLog}
    (found : w.tasks id = some ⟨job, .call op next, log, false⟩) (hsuspends : op.2.suspends = true)
    (hallowed : (progress log).Allows chain byId policy op.2) :
    IsTraffic decode state key (w.put id ⟨job, .call op next, log, true⟩) s ∨
      ∃ o s', Acts (.drop id) o ∧ s.step o = some s' ∧
        IsTraffic decode state key (w.put id ⟨job, .call op next, log, true⟩) s' := by
  have hchecked : checkedBy decode state key w id = (progress log).phase.checked? := by
    simp [checkedBy, found, checkedOf, hjob]
  have hflying : flyingBy decode state key w id = (progress log).phase.inFlight := by
    simp [flyingBy, found, flyingOf, hjob]
  have hchecked' : checkedOf decode state key ⟨job, .call op next, log, true⟩ = (progress log).phase.checked? := by
    simp [checkedOf, hjob]
  have hflying' : flyingOf decode state key ⟨job, .call op next, log, true⟩ = none := by simp [flyingOf]
  have waits : (progress log).phase.inFlight = none →
      IsTraffic decode state key ((w.withMemory w.memory).put id ⟨job, .call op next, log, true⟩) s :=
    fun hnone => h.stay (hchecked.trans hchecked'.symm) (hflying.trans (hnone.trans hflying'.symm)) rfl rfl
  obtain ⟨key', access⟩ := op
  cases access with
  | lockCursor lb eligible => exact .inl (waits (by rw [hallowed.1.phase]; rfl))
  | lockRng | delay => exact .inl (waits (by rw [hallowed.phase]; rfl))
  | forward provider timeout =>
    obtain ⟨hphase, -, -⟩ := hallowed
    rw [hphase] at hchecked hchecked' hflying
    obtain ⟨a, s', rfl, -, hstep, hs'⟩ := h.cancel hflying
    refine .inr ⟨.cancel a, s', rfl, hstep, ?_⟩
    show IsTraffic decode state key ((w.withMemory w.memory).put _ _) s'
    rw [isTraffic_put, hchecked', hflying', ← hchecked, Function.update_eq_self]
    exact hs'
  | readEntry | isAvailable | onRequestStart | onSuccess | onFailure => cases hsuspends

theorem on_iff {job : Tasks.Job} {chain : ChainRuntime}
    (hchain : state.resolveChain decode job.call.chainId = .ok chain) :
    job.on decode state key = true ↔ chain.id = key := by
  simp [Tasks.Job.on, hchain, Except.toOption]

/-- Every step of the server is a step of the traffic of the chain, or one that it does not see. -/
theorem traffic_step (hstate : ProxyState.new decode globs config = .ok state)
    (h : Reached (server globs decode tower state).step ok (.start memory) w)
    (hs : (server globs decode tower state).step w action = some w') (htraffic : IsTraffic decode state key w s) :
    IsTraffic decode state key w' s ∨
      ∃ op s', Acts action op ∧ s.step op = some s' ∧ IsTraffic decode state key w' s' := by
  have allowed : ∀ {id job op next log}, w.tasks id = some ⟨job, .call op next, log, false⟩ →
      ∃ chain, state.resolveChain decode job.call.chainId = .ok chain ∧ op.1 = chain.id ∧
        (progress log).Allows chain state.providersById (job.policy globs chain) op.2 :=
    fun found => (task_progress hstate h found).1
  cases Runtime.Step.of_step hs with
  | spawn id job free => exact .inl (htraffic.spawn free job _)
  | access id input job op next log a m found executed =>
    obtain ⟨chain, hchain, hkey, hallowed⟩ := allowed found
    cases hjob : job.on decode state key with
    | true => exact htraffic.access hjob found executed (hkey.trans ((on_iff hchain).mp hjob)) hallowed
    | false =>
      have hne : op.1 ≠ key := fun heq => Bool.eq_false_iff.mp hjob ((on_iff hchain).mpr (hkey.symm.trans heq))
      have hbreaker : (m.chains key).breaker = _ := exec_breaker executed
      simp only [callOf, hne, ↓reduceIte, Option.map_none, Option.getD_none] at hbreaker
      exact .inl (htraffic.elsewhere hjob found hbreaker (ServerMemory.exec_now executed))
  | drop id job op next log found suspends =>
    obtain ⟨chain, hchain, hkey, hallowed⟩ := allowed found
    cases hjob : job.on decode state key with
    | true => exact htraffic.drop hjob found suspends hallowed
    | false =>
      refine .inl ?_
      show IsTraffic decode state key ((w.withMemory w.memory).put id _) s
      exact htraffic.elsewhere hjob found rfl rfl
  | outside event m changed =>
    cases event with
    | tick elapsed =>
      obtain rfl := Option.some.inj changed
      exact .inr ⟨.tick elapsed, _, rfl, rfl, Traffic.Shows.tick htraffic elapsed⟩
    | probed k provider client =>
      have hprobed : ServerMemory.outside w.memory (.probed k provider client) = some m := changed
      have hnow : m.now = w.memory.now := by
        obtain ⟨-, heq⟩ := Option.ite_none_right_eq_some.mp hprobed
        rw [← Option.some.inj heq, ServerMemory.now_modify]
      have hbreaker : (m.chains key).breaker = (w.memory.chains key).breaker := (outside_chain hprobed).1
      refine .inl ?_
      unfold IsTraffic
      rw [World.memory_withMemory, hbreaker, hnow]
      exact htraffic

/-- From a reached state with its traffic, whatever the server does is matched by a run of the traffic. -/
theorem traffic_run {ok' : Traffic → Op → Prop} (hstate : ProxyState.new decode globs config = .ok state)
    (h : Reached (server globs decode tower state).step ok (.start memory) w)
    (htraffic : IsTraffic decode state key w s)
    (hok : ∀ w s action op, ok w action → IsTraffic decode state key w s → Acts action op → ok' s op)
    (h' : Reached (server globs decode tower state).step ok w w') :
    ∃ s', Reached Traffic.step ok' s s' ∧ IsTraffic decode state key w' s' := by
  refine h'.simulate (R := IsTraffic decode state key) htraffic ?_
  intro w₁ action w₂ s₁ hr hok₁ hs htraffic₁
  rcases traffic_step hstate (h.trans hr) hs htraffic₁ with hstay | ⟨op, s₂, hacts, hstep, htraffic₂⟩
  · exact ⟨s₁, .start, hstay⟩
  · exact ⟨s₂, .step .start (hok _ _ _ _ hok₁ htraffic₁ hacts) hstep, htraffic₂⟩

/-- The traffic of a chain of a new server. -/
theorem isTraffic_start (hstate : ProxyState.new decode globs config = .ok state) {chain : ChainRuntime}
    (hchain : state.chains.lookup key = some chain) (now : Instant) :
    IsTraffic decode state key (.start (state.memory now))
      (.new chain.loadBalancer.pool.providers config.circuitBreaker now) := by
  have hmemory := memory_chains hchain now
  obtain ⟨_, _, tolerance, providers, -, rfl, -⟩ := proxyState_chain hstate hchain
  rw [memory_buildChainRuntime] at hmemory
  unfold IsTraffic
  simp only [World.start, hmemory]
  exact Traffic.shows_new providers config.circuitBreaker now

end Server

/-- The server refines the traffic of each of its chains: in every reached state the breaker of the chain and what
    its requests have checked and have in flight are those of a state that the traffic reaches. -/
theorem server_traffic (globs : Globs) (decode : String → String) (tower : Tower) (config : ProxyConfig)
    (state : ProxyState) (hstate : ProxyState.new decode globs config = .ok state)
    (ok : Server → Action Tasks.Job Input External → Prop) (now : Instant) (w : Server)
    (h : Reached (server globs decode tower state).step ok (.start (state.memory now)) w) (key : ChainKey)
    (chain : ChainRuntime) (hchain : state.chains.lookup key = some chain) :
    ∃ s, Reached Traffic.step (fun _ _ => True)
        (.new chain.loadBalancer.pool.providers config.circuitBreaker now) s ∧ IsTraffic decode state key w s :=
  traffic_run hstate .start (isTraffic_start hstate hchain now) (fun _ _ _ _ _ _ _ => trivial) h

theorem server_traffic_failing : ∃ (state : ProxyState) (chain : ChainRuntime) (w : Server) (s : Traffic),
    (∃ t, w.tasks 0 = some t ∧ t.log.length = 4) ∧
      Reached Traffic.step (fun _ _ => True) (.new chain.loadBalancer.pool.providers fragileConfig.circuitBreaker 0) s ∧
      IsTraffic id state ⟨"default"⟩ w s := by
  obtain ⟨state, chain, w, t, hstate, hchain, -, h, ht, hlen⟩ := failingRequest_reached
  obtain ⟨s, hs, htraffic⟩ := server_traffic literalGlobs id doublingTower fragileConfig state hstate _ 0 w h _ chain
    hchain
  exact ⟨state, chain, w, s, ⟨t, ht, hlen⟩, hs, htraffic⟩

end Rpceth
