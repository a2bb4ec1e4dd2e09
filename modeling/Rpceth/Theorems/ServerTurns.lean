import Rpceth.Theorems.RoundRobin
import Rpceth.Theorems.ServerHistory

/-! The turns of the round robin of a chain over a whole run: the requests take the lock of the cursor in any order,
    and the turns are still those of one caller after the other. -/

namespace Rpceth
open Lib Runtime Happening

/-- A turn of the round robin: the cursor that it starts at, and the providers it chooses from. -/
structure Turn where
  cursor : Nat
  balancer : LoadBalancer
  eligible : List ProviderHandle

/-- What the turn selects. -/
def Turn.selected (turn : Turn) : Option ProviderHandle :=
  (turn.balancer.nextRoundRobinFiltered turn.cursor turn.eligible).1

def turnOf (key : ChainKey) (entry : Moment × ChainAccess) : Option Turn :=
  match entry.2.2 with
  | .lockCursor lb eligible => if entry.2.1 = key then some ⟨(entry.1.1.chains key).cursor, lb, eligible⟩ else none
  | _ => none

/-- The turns of a chain, by whichever requests. -/
def turns (key : ChainKey) (hs : History) : List Turn := (accesses hs).filterMap fun a => turnOf key a.2

/-- The turns of a request are among them, in the same order. -/
theorem turns_of_log (key : ChainKey) (hs : History) (id : Nat) :
    ((logOf id hs).filterMap (turnOf key)).Sublist (turns key hs) := by
  rw [logOf, List.filterMap_map]
  exact List.filter_sublist.filterMap _

/-! ### Successive turns -/

/-- The cursor after some turns. -/
def cursorAfter (lb : LoadBalancer) (cursor : Nat) (turns : List Turn) : Nat :=
  turns.foldl (fun c turn => (lb.nextRoundRobinFiltered c turn.eligible).2) cursor

/-- Each turn starts where the one before it has left the cursor. -/
def Successive (lb : LoadBalancer) : Nat → List Turn → Prop
  | _, [] => True
  | cursor, turn :: rest => turn.cursor = cursor ∧ turn.balancer = lb ∧
      Successive lb (lb.nextRoundRobinFiltered cursor turn.eligible).2 rest

section
variable {lb : LoadBalancer} {cursor : Nat} {l l' : List Turn}

theorem successive_append :
    Successive lb cursor (l ++ l') ↔ Successive lb cursor l ∧ Successive lb (cursorAfter lb cursor l) l' := by
  induction l generalizing cursor with
  | nil => simp [Successive, cursorAfter]
  | cons turn l ih => simp [Successive, ih, cursorAfter, and_assoc]

theorem Successive.rounds (h : Successive lb cursor l) :
    l.map Turn.selected = lb.rounds cursor (l.map Turn.eligible) := by
  induction l generalizing cursor with
  | nil => rfl
  | cons turn l ih =>
    obtain ⟨rfl, rfl, hrest⟩ := h
    simp only [List.map_cons, LoadBalancer.rounds, ih hrest]
    rfl

end

/-! ### The turns of a history -/

section Timeline
variable {globs : Globs} {decode : String → String} {tower : Tower} {config : ProxyConfig} {state : ProxyState}
  {start memory memory' : ServerMemory} {input : Input} {hs : History} {key : ChainKey}

theorem exec_cursor {op : ChainAccess} {a : op.2.Answer} (h : ServerMemory.exec memory input op = some (a, memory')) :
    (memory'.chains key).cursor = ((turnOf key ((memory, input), op)).map fun turn =>
      (turn.balancer.nextRoundRobinFiltered (memory.chains key).cursor turn.eligible).2).getD
        (memory.chains key).cursor := by
  obtain ⟨k, access⟩ := op
  cases access with
  | forward provider timeout =>
    obtain ⟨x, -, heq⟩ := Option.map_eq_some_iff.mp h
    obtain ⟨-, rfl⟩ := Prod.mk.inj heq
    rfl
  | readEntry | lockRng | isAvailable | delay =>
    obtain ⟨-, rfl⟩ := Prod.mk.inj (Option.some.inj h)
    rfl
  | lockCursor lb eligible =>
    obtain ⟨-, rfl⟩ := Prod.mk.inj (Option.some.inj h)
    by_cases hk : k = key
    · subst hk
      simp [turnOf]
    · rw [ServerMemory.chains_modify_ne (Ne.symm hk)]
      simp [turnOf, hk]
  | onRequestStart | onSuccess | onFailure =>
    obtain ⟨-, rfl⟩ := Prod.mk.inj (Option.some.inj h)
    by_cases hk : key = k
    · subst hk
      simp [turnOf]
    · rw [ServerMemory.chains_modify_ne hk]
      simp [turnOf]

theorem turnOf_cursor {entry : Moment × ChainAccess} {turn : Turn} (h : turnOf key entry = some turn) :
    turn.cursor = (entry.1.1.chains key).cursor := by
  unfold turnOf at h
  split at h
  · obtain ⟨-, heq⟩ := Option.ite_none_right_eq_some.mp h
    rw [← Option.some.inj heq]
  · cases h

/-- The turns of one balancer follow each other, and the memory has the cursor after the last one. -/
theorem timeline_turns {lb : LoadBalancer} (h : (server globs decode tower state).Timeline start hs memory)
    (hlb : ∀ turn ∈ turns key hs, turn.balancer = lb) :
    Successive lb (start.chains key).cursor (turns key hs) ∧
      (memory.chains key).cursor = cursorAfter lb (start.chains key).cursor (turns key hs) := by
  induction h with
  | nil => exact ⟨trivial, rfl⟩
  | @snoc hs m m' happening _ happened ih =>
    cases happening with
    | outside event =>
      have hsame : turns key (hs ++ [(m, .outside event)]) = turns key hs := by simp [turns]
      rw [hsame] at hlb ⊢
      obtain ⟨hsuccessive, hcursor⟩ := ih hlb
      exact ⟨hsuccessive, (outside_chain happened).2.1.trans hcursor⟩
    | access id input op =>
      obtain ⟨⟨a, m''⟩, hexec, rfl⟩ := Option.map_eq_some_iff.mp happened
      have hnext : (m''.chains key).cursor = _ := exec_cursor hexec
      have hturns : turns key (hs ++ [(m, .access id input op)]) =
          turns key hs ++ (turnOf key ((m, input), op)).toList := by
        simp only [turns, accesses_snoc_access, List.filterMap_append, List.filterMap_cons, List.filterMap_nil]
        cases turnOf key ((m, input), op) <;> rfl
      rw [hturns] at hlb ⊢
      obtain ⟨hsuccessive, hcursor⟩ := ih fun turn hturn => hlb turn (List.mem_append_left _ hturn)
      cases hturn : turnOf key ((m, input), op) with
      | none =>
        rw [hturn] at hnext
        rw [Option.toList_none, List.append_nil]
        exact ⟨hsuccessive, hnext.trans hcursor⟩
      | some turn =>
        have hbalancer : turn.balancer = lb := hlb turn (by simp [hturn])
        have hat := turnOf_cursor hturn
        rw [hturn] at hnext
        subst hbalancer
        refine ⟨successive_append.mpr ⟨hsuccessive, hat.trans hcursor, rfl, trivial⟩, ?_⟩
        rw [hcursor] at hnext
        simpa [cursorAfter] using hnext

/-- Every turn of a chain is one of its own balancer. -/
theorem turns_balancer (hstate : ProxyState.new decode globs config = .ok state)
    {ok : Server → Action Tasks.Job Input External → Prop} {w : Server}
    (h : Reached (server globs decode tower state).step ok (.start start) w)
    (hlogs : ∀ id, logOf id hs = ((w.tasks id).map Task.log).getD []) {chain : ChainRuntime}
    (hchain : state.chains.lookup key = some chain) : ∀ turn ∈ turns key hs, turn.balancer = chain.loadBalancer := by
  intro turn hturn
  obtain ⟨a, ha, hof⟩ := List.mem_filterMap.mp hturn
  obtain ⟨t, ht, hentry⟩ := task_of_access hlogs ha
  have hlog : ∀ entry ∈ t.log, ∀ turn, turnOf key entry = some turn → turn.balancer = chain.loadBalancer := by
    refine task_invariant (I := fun _ log => ∀ entry ∈ log, ∀ turn, turnOf key entry = some turn →
      turn.balancer = chain.loadBalancer) hstate h ht (fun _ he => absurd he List.not_mem_nil) ?_
    intro s log m op a hI hallowed _ entry hentry turn hturn
    rcases List.mem_append.mp hentry with hentry | hentry
    · exact hI entry hentry turn hturn
    · obtain rfl := List.mem_singleton.mp hentry
      obtain ⟨chain', hchain', hkey, hallowed⟩ := hallowed
      obtain ⟨key', hkey'⟩ := lookup_of_resolveChain hchain'
      obtain ⟨k, access⟩ := op
      cases access with
      | lockCursor lb eligible =>
        obtain ⟨rfl, heq⟩ := Option.ite_none_right_eq_some.mp hturn
        obtain rfl := Option.some.inj heq
        have hown : chain'.id = key' := by
          obtain ⟨_, _, _, _, -, rfl, -⟩ := proxyState_chain hstate hkey'
          rfl
        obtain rfl : key' = k := hown.symm.trans hkey.symm
        obtain rfl := Option.some.inj (hkey'.symm.trans hchain)
        exact hallowed.2
      | _ => cases hturn
  exact hlog a.2 hentry turn hof

end Timeline

/-- However the requests of a chain interleave, its turns of the round robin select what one caller after the other
    would get. So a provider that is eligible for as many turns in a row as the pool has providers is selected in
    one of them, and over providers with distinct ids the turns rotate exactly while the same ones are
    eligible. -/
theorem turns_history (globs : Globs) (decode : String → String) (tower : Tower) (config : ProxyConfig)
    (state : ProxyState) (hstate : ProxyState.new decode globs config = .ok state)
    (ok : Server → Action Tasks.Job Input External → Prop) (now : Instant) (w : Server)
    (h : Reached (server globs decode tower state).step ok (.start (state.memory now)) w) (key : ChainKey)
    (chain : ChainRuntime) (hchain : state.chains.lookup key = some chain) :
    ∃ hs : History, (server globs decode tower state).Timeline (state.memory now) hs w.memory ∧
      (∀ id t, w.tasks id = some t → logOf id hs = t.log) ∧
      (turns key hs).map Turn.selected = chain.loadBalancer.rounds 0 ((turns key hs).map Turn.eligible) ∧
      ∀ before window after, turns key hs = before ++ window ++ after →
        (∀ p ∈ chain.loadBalancer.pool.providers, chain.loadBalancer.pool.len ≤ window.length →
          (∀ turn ∈ window, p ∈ turn.eligible) → ∃ turn ∈ window, turn.selected = some p) ∧
        ((chain.loadBalancer.pool.providers.map (·.id)).Nodup → ∀ (E : Finset ProviderHandle) m,
          (∀ e ∈ E, e ∈ chain.loadBalancer.pool.providers) → window.length = m * E.card →
          (∀ turn ∈ window, turn.eligible.toFinset = E) →
          ∃ cursor, window.map Turn.selected = (List.replicate m
            (((chain.loadBalancer.pool.providers.rotate cursor).filter fun e => decide (e ∈ E)).map
              some)).flatten) := by
  obtain ⟨hs, htime, hlogs⟩ := Runtime.exists_timeline h
  have hturns := (timeline_turns htime (turns_balancer hstate h hlogs hchain)).1
  have hzero : ((state.memory now).chains key).cursor = 0 := by rw [memory_chains hchain]; rfl
  rw [hzero] at hturns
  refine ⟨hs, htime, fun id t ht => by simp [hlogs, ht], hturns.rounds, fun before window after hsplit => ?_⟩
  rw [hsplit] at hturns
  have hwindow := (successive_append.mp (successive_append.mp hturns).1).2
  have hrounds := hwindow.rounds
  constructor
  · intro p hp hlen heligible
    have hmem : some p ∈ window.map Turn.selected := by
      rw [hrounds]
      refine LoadBalancer.mem_rounds hp (fun eligible he => ?_) (by simpa using hlen)
      obtain ⟨turn, hturn, rfl⟩ := List.mem_map.mp he
      exact heligible turn hturn
    exact List.mem_map.mp hmem
  · intro hids E m hE hlen heligible
    refine ⟨cursorAfter chain.loadBalancer 0 before, ?_⟩
    rw [hrounds]
    refine LoadBalancer.rounds_rotate hids hE (by simpa using hlen) fun eligible he => ?_
    obtain ⟨turn, hturn, rfl⟩ := List.mem_map.mp he
    exact heligible turn hturn

/-- Two requests have taken two turns each, with a failed call and an open circuit in between. -/
theorem turns_history_busy : ∃ (state : ProxyState) (chain : ChainRuntime) (w : Server) (hs : History),
    Reached (server literalGlobs id doublingTower state).step (fun _ _ => True) (.start (state.memory 0)) w ∧
      (turns ⟨"one"⟩ hs).map Turn.selected =
        chain.loadBalancer.rounds 0 ((turns ⟨"one"⟩ hs).map Turn.eligible) ∧
      ∀ i ∈ [0, 2], ∃ own : List Turn, own.Sublist (turns ⟨"one"⟩ hs) ∧
        own.map (fun turn => turn.selected.map (·.id)) = [some ⟨"a"⟩, some ⟨"b"⟩] := by
  have hrun : ∃ state chain, ProxyState.new id literalGlobs pairedConfig = .ok state ∧
      state.chains.lookup ⟨"one"⟩ = some chain ∧
      (run (guarded (server literalGlobs id doublingTower state).step fun _ _ => True) (.start (state.memory 0))
        busyRun).any (fun w => [0, 2].all fun i => (w.tasks i).any fun t =>
          decide ((t.log.filterMap (turnOf ⟨"one"⟩)).map (fun turn => turn.selected.map (·.id)) =
            [some ⟨"a"⟩, some ⟨"b"⟩])) = true :=
    ⟨_, _, rfl, rfl, by decide +kernel⟩
  obtain ⟨state, chain, hstate, hchain, hrun⟩ := hrun
  obtain ⟨w, h, hw⟩ := exists_reached_of_run hrun
  obtain ⟨hs, -, hlogs, hturns, -⟩ := turns_history literalGlobs id doublingTower pairedConfig state hstate _ 0 w h _
    chain hchain
  refine ⟨state, chain, w, hs, h, hturns, fun i hi => ?_⟩
  obtain ⟨t, ht, hown⟩ := (Option.any_eq_true _ _).mp (List.all_eq_true.mp hw i hi)
  exact ⟨_, hlogs i t ht ▸ turns_of_log _ hs i, of_decide_eq_true hown⟩

end Rpceth
