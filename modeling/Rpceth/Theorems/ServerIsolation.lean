import Rpceth.Lib.Isolation
import Rpceth.Theorems.ServerTraffic

/-! The chains of a server do not disturb each other: what its requests and probes do to one chain they would also
    do in a server with no requests and no probes for the others. -/

namespace Rpceth
open Lib Program

/-- The event reaches the memory of the chain. -/
def External.on (key : ChainKey) : External → Prop
  | .tick _ => True
  | .probed k _ _ => k = key

/-- The memories show the same to the chain. -/
def ServerMemory.Alike (key : ChainKey) (m n : ServerMemory) : Prop := m.now = n.now ∧ m.chains key = n.chains key

section
variable {key k : ChainKey} {m n m' : ServerMemory} {input : Input}

theorem ServerMemory.Alike.modify (h : m.Alike key n) (f : ChainMemory → ChainMemory) :
    (m.modify key f).Alike key (n.modify key f) := by
  refine ⟨h.1, ?_⟩
  rw [chains_modify, chains_modify, h.2]

theorem ServerMemory.Alike.modify_other (h : m.Alike key n) (hne : k ≠ key) (f : ChainMemory → ChainMemory) :
    (m.modify k f).Alike key n := by
  refine ⟨h.1, ?_⟩
  rw [chains_modify_ne (Ne.symm hne), h.2]

theorem exec_alike {op : ChainAccess} {a : op.2.Answer} (hkey : op.1 = key) (halike : m.Alike key n)
    (h : m.exec input op = some (a, m')) : ∃ n', n.exec input op = some (a, n') ∧ m'.Alike key n' := by
  obtain ⟨k, access⟩ := op
  obtain rfl : k = key := hkey
  obtain ⟨hnow, hchains⟩ := id halike
  cases access with
  | readEntry | lockRng | isAvailable | delay =>
    obtain ⟨rfl, rfl⟩ := Prod.mk.inj (Option.some.inj h)
    exact ⟨n, by simp [ServerMemory.exec, hnow, hchains], halike⟩
  | forward provider timeout =>
    obtain ⟨x, hforward, heq⟩ := Option.map_eq_some_iff.mp h
    obtain ⟨rfl, rfl⟩ := Prod.mk.inj heq
    exact ⟨n, by simp [ServerMemory.exec, hforward], halike⟩
  | lockCursor lb eligible =>
    obtain ⟨rfl, rfl⟩ := Prod.mk.inj (Option.some.inj h)
    rw [hchains]
    exact ⟨_, rfl, halike.modify _⟩
  | onSuccess p =>
    obtain ⟨rfl, rfl⟩ := Prod.mk.inj (Option.some.inj h)
    exact ⟨_, rfl, halike.modify _⟩
  | onRequestStart p | onFailure p =>
    obtain ⟨rfl, rfl⟩ := Prod.mk.inj (Option.some.inj h)
    refine ⟨_, rfl, ?_⟩
    rw [hnow]
    exact halike.modify _

theorem exec_other_alike {op : ChainAccess} {a : op.2.Answer} (hkey : op.1 ≠ key) (halike : m.Alike key n)
    (h : m.exec input op = some (a, m')) : m'.Alike key n := by
  obtain ⟨k, access⟩ := op
  cases access with
  | readEntry | lockRng | isAvailable | delay =>
    obtain ⟨-, rfl⟩ := Prod.mk.inj (Option.some.inj h)
    exact halike
  | forward provider timeout =>
    obtain ⟨x, -, heq⟩ := Option.map_eq_some_iff.mp h
    obtain ⟨-, rfl⟩ := Prod.mk.inj heq
    exact halike
  | lockCursor | onRequestStart | onSuccess | onFailure =>
    obtain ⟨-, rfl⟩ := Prod.mk.inj (Option.some.inj h)
    exact halike.modify_other hkey _

theorem outside_alike {event : External} (hon : event.on key) (halike : m.Alike key n)
    (h : m.outside event = some m') : ∃ n', n.outside event = some n' ∧ m'.Alike key n' := by
  obtain ⟨hnow, hchains⟩ := id halike
  cases event with
  | tick elapsed =>
    obtain rfl := Option.some.inj h
    exact ⟨_, rfl, congrArg (· + elapsed) hnow, hchains⟩
  | probed k provider client =>
    obtain rfl : k = key := hon
    obtain ⟨hany, heq⟩ := Option.ite_none_right_eq_some.mp h
    obtain rfl := Option.some.inj heq
    refine ⟨_, if_pos (hchains ▸ hany), ?_⟩
    rw [hnow]
    exact halike.modify _

theorem outside_other_alike {event : External} (hon : ¬event.on key) (halike : m.Alike key n)
    (h : m.outside event = some m') : m'.Alike key n := by
  cases event with
  | tick elapsed => exact absurd trivial hon
  | probed k provider client =>
    obtain ⟨-, heq⟩ := Option.ite_none_right_eq_some.mp h
    obtain rfl := Option.some.inj heq
    exact halike.modify_other hon _

end

/-- A chain as one side of the server. -/
def chainSide (globs : Globs) (decode : String → String) (tower : Tower) (state : ProxyState) (key : ChainKey) :
    Side (server globs decode tower state) where
  job job := job.on decode state key = true
  op op := op.1 = key
  event event := event.on key
  alike m n := m.Alike key n
  exec_own := exec_alike
  exec_other := exec_other_alike
  outside_own := outside_alike
  outside_other := outside_other_alike

/-- Whatever the whole server does, with each of its chains it does what it would do with the requests and the
    probes of this chain alone: there is a run of the server with no others in which the memory of the chain is the
    same, and in which each of its requests has come as far, by the same accesses with the same input. -/
theorem chain_isolated (globs : Globs) (decode : String → String) (tower : Tower) (config : ProxyConfig)
    (state : ProxyState) (hstate : ProxyState.new decode globs config = .ok state)
    (ok : Server → Action Tasks.Job Input External → Prop) (memory : ServerMemory) (w : Server)
    (h : Reached (server globs decode tower state).step ok (.start memory) w) (key : ChainKey) :
    ∃ v : Server, Reached (server globs decode tower state).step
        (fun _ action => (chainSide globs decode tower state key).Own action) (.start memory) v ∧
      v.memory.now = w.memory.now ∧ v.memory.chains key = w.memory.chains key ∧
      (∀ id t, w.tasks id = some t → t.job.on decode state key = true → ∃ t', v.tasks id = some t' ∧
        t'.job = t.job ∧ t'.program = t.program ∧ t'.dropped = t.dropped ∧
        t'.log.map (fun entry => (entry.1.2, entry.2)) = t.log.map fun entry => (entry.1.2, entry.2)) ∧
      ∀ id t', v.tasks id = some t' → t'.job.on decode state key = true := by
  have hops : ∀ w, Reached (server globs decode tower state).step ok (.start memory) w → ∀ id t op next,
      w.tasks id = some t → t.program = .call op next →
      ((chainSide globs decode tower state key).op op ↔ (chainSide globs decode tower state key).job t.job) := by
    intro w h id t op next ht hop
    have hfollows := task_progress hstate h ht
    rw [hop] at hfollows
    obtain ⟨chain, hchain, hkey, -⟩ := hfollows.1
    show op.1 = key ↔ t.job.on decode state key = true
    rw [on_iff hchain, hkey]
  obtain ⟨v, hv, ⟨hnow, hchains⟩, hown, honly⟩ := Side.isolate hops h ⟨rfl, rfl⟩
  refine ⟨v, hv, hnow.symm, hchains.symm, fun id t ht hjob => ?_, fun id t' ht' => ?_⟩
  · obtain ⟨t', ht', hjob', hprogram, hdropped, hlog⟩ := hown id t ht hjob
    exact ⟨t', ht', hjob', hprogram, hdropped, Side.map_of_same hlog⟩
  · obtain ⟨t, -, hjob, htwin⟩ := honly id t' ht'
    rw [htwin.job]
    exact hjob

/-- Without the request on the other chain and its probes, the first request comes as far. -/
theorem chain_isolated_busy : ∃ (state : ProxyState) (w v : Server) (t t' other : RequestTask),
    Reached (server literalGlobs id doublingTower state).step (fun _ _ => True) (.start (state.memory 0)) w ∧
      (w.tasks 0 = some t ∧ t.log.length = 22) ∧ (w.tasks 1 = some other ∧ other.log.length = 11) ∧
      other.job.on id state ⟨"one"⟩ = false ∧
      Reached (server literalGlobs id doublingTower state).step
        (fun _ action => (chainSide literalGlobs id doublingTower state ⟨"one"⟩).Own action)
        (.start (state.memory 0)) v ∧
      v.memory.chains ⟨"one"⟩ = w.memory.chains ⟨"one"⟩ ∧ v.tasks 0 = some t' ∧ t'.program = t.program ∧
      ∀ i t, v.tasks i = some t → t.job.on id state ⟨"one"⟩ = true := by
  have hrun : ∃ state, ProxyState.new id literalGlobs pairedConfig = .ok state ∧
      (run (guarded (server literalGlobs id doublingTower state).step fun _ _ => True) (.start (state.memory 0))
        busyRun).any (fun w =>
          ((w.tasks 0).any fun t => decide (t.log.length = 22 ∧ t.job.on id state ⟨"one"⟩ = true)) &&
          (w.tasks 1).any fun t => decide (t.log.length = 11 ∧ t.job.on id state ⟨"one"⟩ = false)) = true :=
    ⟨_, rfl, by decide +kernel⟩
  obtain ⟨state, hstate, hrun⟩ := hrun
  obtain ⟨w, h, hw⟩ := exists_reached_of_run hrun
  obtain ⟨hfirst, hsecond⟩ := Bool.and_eq_true_iff.mp hw
  obtain ⟨t, ht, hown⟩ := (Option.any_eq_true _ _).mp hfirst
  obtain ⟨other, hother, hoff⟩ := (Option.any_eq_true _ _).mp hsecond
  obtain ⟨hlen, hon⟩ := of_decide_eq_true hown
  obtain ⟨hlen', hnot⟩ := of_decide_eq_true hoff
  obtain ⟨v, hv, -, hchains, htwins, honly⟩ :=
    chain_isolated literalGlobs id doublingTower pairedConfig state hstate _ _ w h ⟨"one"⟩
  obtain ⟨t', ht', -, hprogram, -⟩ := htwins 0 t ht hon
  exact ⟨state, w, v, t, t', other, h, ⟨ht, hlen⟩, ⟨hother, hlen'⟩, hnot, hv, hchains, ht', hprogram, honly⟩

end Rpceth
