import Rpceth.Server.System
import Rpceth.Theorems.RequestLoop

/-! The protocol that every request keeps to, step by step: it checks a provider of its chain that it has not
    tried, starts on it, calls it, reports the outcome, and goes on only after a failure, within its budget. -/

namespace Rpceth
open Lib Program

/-- Where a request is on its way. -/
inductive Phase where
  | selecting
  | checked (provider : ProviderId)
  | started (provider : ProviderId)
  | answered (provider : ProviderId) (result : Except String ProviderResponse)
  | succeeded (provider : ProviderId) (response : ProviderResponse)

structure Progress where
  /-- The providers that failed, in order, and their errors. -/
  failed : List (ProviderId × String)
  phase : Phase

namespace Progress

def start : Progress := ⟨[], .selecting⟩

def tried (s : Progress) : List ProviderId := s.failed.map Prod.fst

def lastError (s : Progress) : Option String := s.failed.getLast?.map Prod.snd

/-- A request that may select another provider. -/
structure Selecting (policy : MethodPolicy) (s : Progress) : Prop where
  phase : s.phase = .selecting
  budget : s.failed.length < max policy.maxRetries 1

/-- The handle is in the pool of the chain, or it is what the table of all providers has for its id. -/
def Known (chain : ChainRuntime) (byId : HashMap ProviderId ProviderHandle) (h : ProviderHandle) : Prop :=
  h ∈ chain.loadBalancer.pool.providers ∨ byId.lookup h.id = some h

/-- The access is one that a request of the chain may make. -/
def Allows (chain : ChainRuntime) (byId : HashMap ProviderId ProviderHandle) (policy : MethodPolicy) (s : Progress) :
    Access → Prop
  | .readEntry _ | .lockRng | .delay _ => s.Selecting policy
  | .lockCursor lb _ => s.Selecting policy ∧ lb = chain.loadBalancer
  | .isAvailable p => s.Selecting policy ∧ p ∈ chain.providers ∧ p ∉ s.tried
  | .onRequestStart p => s.phase = .checked p
  | .forward h timeout => s.phase = .started h.id ∧ Known chain byId h ∧ timeout = max h.timeout policy.timeout
  | .onSuccess p => ∃ response, s.phase = .answered p (.ok response)
  | .onFailure p => ∃ message, s.phase = .answered p (.error message)

def next (s : Progress) : (op : ChainAccess) → op.2.Answer → Progress
  | (_, .isAvailable p), available =>
    let available : Bool := available
    if available then { s with phase := .checked p } else s
  | (_, .onRequestStart p), _ => { s with phase := .started p }
  | (_, .forward h _), result => { s with phase := .answered h.id result }
  | (_, .onSuccess _), _ =>
    match s.phase with
    | .answered p (.ok response) => { s with phase := .succeeded p response }
    | _ => s
  | (_, .onFailure _), _ =>
    match s.phase with
    | .answered p (.error message) => ⟨s.failed ++ [(p, message)], .selecting⟩
    | _ => s
  | _, _ => s

end Progress

def requestProtocol (chain : ChainRuntime) (byId : HashMap ProviderId ProviderHandle) (policy : MethodPolicy) :
    Protocol ChainAccess (fun op => op.2.Answer) Progress where
  allowed s op := op.1 = chain.id ∧ s.Allows chain byId policy op.2
  next := Progress.next

section
variable {chain : ChainRuntime} {policy : MethodPolicy} {byId : HashMap ProviderId ProviderHandle}
  {ctx : RequestContext} {β : Type} {Q : Progress → β → Prop} {failed : List (ProviderId × String)} {s : Progress}

theorem follows_ask {a : Access} {f : a.Answer → ChainTask β} (hallowed : s.Allows chain byId policy a)
    (h : ∀ x, Follows (requestProtocol chain byId policy) Q (s.next (chain.id, a) x) (f x)) :
    Follows (requestProtocol chain byId policy) Q s ((Tasks.ask chain.id a).bind f) :=
  Follows.call ⟨rfl, hallowed⟩ h

/-! ### Selection -/

theorem readHealth_follows (hs : s.Selecting policy) (health : HealthService) :
    Follows (requestProtocol chain byId policy) (fun s' _ => s' = s) s (Tasks.readHealth chain.id health) := by
  have hentry : ∀ p, Follows (requestProtocol chain byId policy) (fun s' _ => s' = s) s
      (Tasks.readEntry chain.id p) := fun p => follows_ask hs fun _ => Follows.done rfl
  have hentries : Follows (requestProtocol chain byId policy) (fun s' _ => s' = s) s
      (Program.forEach (Tasks.readEntry chain.id) health.state.keys) :=
    Follows.forEach (I := fun s' _ _ => s' = s) (fun s' _ _ p heq => by rw [heq]; exact hentry p) rfl _
  exact Follows.bind hentries fun _ _ heq => Follows.done heq

theorem healthFilter_follows (hs : s.Selecting policy) (lb : LoadBalancer) (p : Option MethodPolicy) :
    Follows (requestProtocol chain byId policy) (fun s' _ => s' = s) s (Tasks.healthFilter chain.id lb p) := by
  unfold Tasks.healthFilter
  split
  · rename_i health _
    have hread : Follows (requestProtocol chain byId policy) (fun s' _ => s' = s) s
        (Tasks.readHealth chain.id health) := readHealth_follows hs health
    refine Follows.bind hread fun s₁ atBest heq => ?_
    subst heq
    refine Follows.bind hread fun s₂ atSnapshots heq => ?_
    subst heq
    dsimp only
    split
    · exact Follows.done rfl
    · exact Follows.bind hread fun _ _ heq => Follows.done heq
  · exact Follows.done rfl

theorem nextRoundRobinFiltered_follows (hs : s.Selecting policy) (eligible : List ProviderHandle) :
    Follows (requestProtocol chain byId policy) (fun s' _ => s' = s) s
      (Tasks.nextRoundRobinFiltered chain.id chain.loadBalancer eligible) := by
  unfold Tasks.nextRoundRobinFiltered
  split
  · exact Follows.done rfl
  · exact follows_ask ⟨hs, rfl⟩ fun _ => Follows.done rfl

theorem weightedRandomFrom_follows (hs : s.Selecting policy) (eligible : List ProviderHandle)
    (scores : HashMap ProviderId ProviderHealthSnapshot) (p : Option MethodPolicy) :
    Follows (requestProtocol chain byId policy) (fun s' _ => s' = s) s
      (Tasks.weightedRandomFrom chain.id eligible scores p) := by
  unfold Tasks.weightedRandomFrom
  split
  · exact Follows.done rfl
  · exact Follows.done rfl
  · exact follows_ask hs fun _ => Follows.done rfl

theorem select_follows (hs : s.Selecting policy) (excluded : Finset ProviderId) (p : Option MethodPolicy) :
    Follows (requestProtocol chain byId policy) (fun s' _ => s' = s) s
      (Tasks.select chain.id chain.loadBalancer excluded p) := by
  unfold Tasks.select
  refine Follows.bind (healthFilter_follows hs _ _) fun s' filter heq => ?_
  subst heq
  dsimp only
  split
  · exact Follows.done rfl
  · split
    · exact Follows.bind (nextRoundRobinFiltered_follows hs _) fun _ _ heq => Follows.done heq
    · exact Follows.bind (weightedRandomFrom_follows hs _ _ _) fun _ _ heq => Follows.done heq

/-- What a selection leaves behind: the provider, if any, has just been seen available. -/
def Selected (chain : ChainRuntime) (byId : HashMap ProviderId ProviderHandle)
    (failed : List (ProviderId × String)) (s : Progress) : Option ProviderHandle → Prop
  | none => s = ⟨failed, .selecting⟩
  | some h => s = ⟨failed, .checked h.id⟩ ∧ Progress.Known chain byId h

theorem isAvailable_follows {p : ProviderId} {f : Bool → ChainTask β}
    (hs : Progress.Selecting policy ⟨failed, .selecting⟩) (hp : p ∈ chain.providers) (htried : p ∉ failed.map Prod.fst)
    (yes : Follows (requestProtocol chain byId policy) Q ⟨failed, .checked p⟩ (f true))
    (no : Follows (requestProtocol chain byId policy) Q ⟨failed, .selecting⟩ (f false)) :
    Follows (requestProtocol chain byId policy) Q ⟨failed, .selecting⟩ ((Tasks.isAvailable chain.id p).bind f) := by
  refine follows_ask ⟨hs, hp, htried⟩ fun available => ?_
  change Bool at available
  cases available with
  | true => exact yes
  | false => exact no

theorem selectAvailable_follows (hpool : chain.providers = chain.loadBalancer.pool.ids)
    (hs : Progress.Selecting policy ⟨failed, .selecting⟩) {excluded : Finset ProviderId}
    (hex : (failed.map Prod.fst).toFinset ⊆ excluded) :
    Follows (requestProtocol chain byId policy) (Selected chain byId failed) ⟨failed, .selecting⟩
      (Tasks.selectAvailable chain policy excluded) := by
  induction hk : (chain.loadBalancer.pool.ids \ excluded).card using Nat.strong_induction_on
    generalizing excluded with
  | _ k ih =>
    subst hk
    rw [Tasks.selectAvailable]
    refine Follows.bind (select_follows hs excluded _) fun s' selection heq => ?_
    subst heq
    obtain ⟨_ | provider, hmem⟩ := selection
    · exact Follows.done rfl
    · obtain ⟨hin, hnot⟩ := hmem provider rfl
      refine isAvailable_follows hs (hpool ▸ ProviderPool.mem_ids hin) ?_ (Follows.done ⟨rfl, .inl hin⟩) ?_
      · exact fun htried => hnot (hex (List.mem_toFinset.mpr htried))
      · exact ih _ (Tasks.card_sdiff_insert_lt (hmem provider rfl)) (hex.trans (Finset.subset_insert _ _)) rfl

theorem selectProvider_follows (hids : ∀ p handle, byId.lookup p = some handle → handle.id = p)
    (hpool : chain.providers = chain.loadBalancer.pool.ids)
    (hs : Progress.Selecting policy ⟨failed, .selecting⟩) :
    Follows (requestProtocol chain byId policy) (Selected chain byId failed) ⟨failed, .selecting⟩
      (Tasks.selectProvider chain byId ctx policy (failed.map Prod.fst).toFinset) := by
  have hinsert : ∀ p : ProviderId, (failed.map Prod.fst).toFinset ⊆ insert p (failed.map Prod.fst).toFinset :=
    fun p => Finset.subset_insert _ _
  unfold Tasks.selectProvider
  split
  · exact selectAvailable_follows hpool hs (Finset.Subset.refl _)
  · rename_i p hover
    dsimp only
    split
    · exact selectAvailable_follows hpool hs (hinsert p)
    · rename_i htried
      split
      · exact Follows.done rfl
      · rename_i hin
        split
        · exact selectAvailable_follows hpool hs (hinsert p)
        · rename_i handle hlookup
          refine isAvailable_follows hs (not_not.mp hin) (fun h => htried (List.mem_toFinset.mpr h)) ?_ ?_
          · have hid := hids p handle hlookup
            subst hid
            exact Follows.done ⟨rfl, .inr hlookup⟩
          · exact selectAvailable_follows hpool hs (hinsert p)

/-! ### The loop -/

variable {tower : Tower}

theorem backoffDelay_follows (failed : List (ProviderId × String)) {attempt : Nat} (backoff : Option tower.Backoff)
    (hattempt : attempt + 1 = failed.length) :
    Follows (requestProtocol chain byId policy) (fun s' _ => s' = ⟨failed, .selecting⟩) ⟨failed, .selecting⟩
      (Tasks.backoffDelay chain tower attempt (max policy.maxRetries 1) backoff) := by
  unfold Tasks.backoffDelay
  split
  · rename_i hlt
    split
    · exact follows_ask ⟨rfl, hattempt ▸ hlt⟩ fun _ => Follows.done rfl
    · exact Follows.done rfl
  · exact Follows.done rfl

/-- How the loop ends. -/
def Ended (s : Progress) : LoopEnd → Prop
  | .success response => ∃ p, s.phase = .succeeded p response
  | .exhausted lastError => s.phase = .selecting ∧ lastError = s.lastError
  | .pending => False

theorem attempts_follows (hids : ∀ p handle, byId.lookup p = some handle → handle.id = p)
    (hpool : chain.providers = chain.loadBalancer.pool.ids) (failed : List (ProviderId × String)) {remaining : Nat}
    {lastError : Option String} {backoff : Option tower.Backoff} (hlast : lastError = failed.getLast?.map Prod.snd)
    (hlen : failed.length + remaining = max policy.maxRetries 1) :
    Follows (requestProtocol chain byId policy) Ended ⟨failed, .selecting⟩
      (Tasks.attempts chain byId ctx policy tower (max policy.maxRetries 1) remaining (failed.map Prod.fst).toFinset
        lastError backoff) := by
  induction remaining generalizing failed lastError backoff with
  | zero => exact Follows.done ⟨rfl, hlast⟩
  | succ remaining ih =>
    have hs : Progress.Selecting policy ⟨failed, .selecting⟩ := ⟨rfl, show failed.length < _ by omega⟩
    rw [Tasks.attempts]
    refine Follows.bind (selectProvider_follows hids hpool hs) fun s' selected hselected => ?_
    rcases selected with _ | provider
    · obtain rfl := hselected
      exact Follows.done ⟨rfl, hlast⟩
    · obtain ⟨rfl, hknown⟩ := hselected
      refine follows_ask rfl fun _ => follows_ask ⟨rfl, hknown, rfl⟩ fun result => ?_
      change Except String ProviderResponse at result
      rcases result with message | response
      · let failed' := failed ++ [(provider.id, message)]
        have hinsert : insert provider.id (failed.map Prod.fst).toFinset = (failed'.map Prod.fst).toFinset := by
          simp [failed', List.toFinset_append]
        have hlen' : failed'.length = failed.length + 1 := by simp [failed']
        refine follows_ask ⟨message, rfl⟩ fun _ => ?_
        refine Follows.bind (backoffDelay_follows failed' _ ?_) fun s' backoff' heq => ?_
        · omega
        · subst heq
          rw [hinsert]
          exact ih failed' (by simp [failed']) (by omega)
      · exact follows_ask ⟨response, rfl⟩ fun _ => Follows.done ⟨provider.id, rfl⟩

theorem requestLoop_follows (hids : ∀ p handle, byId.lookup p = some handle → handle.id = p)
    (hpool : chain.providers = chain.loadBalancer.pool.ids) {loop : ChainTask LoopEnd}
    (hloop : Tasks.requestLoop chain byId ctx policy tower = some loop) :
    Follows (requestProtocol chain byId policy) Ended .start loop := by
  unfold Tasks.requestLoop at hloop
  split at hloop
  · cases hloop
    exact attempts_follows hids hpool [] rfl (Nat.zero_add _)
  · obtain ⟨backoff, -, rfl⟩ := Option.map_eq_some_iff.mp hloop
    exact attempts_follows hids hpool [] rfl (Nat.zero_add _)

end

/-! ### The handler -/

/-- The policy of a job on a chain. -/
def Tasks.Job.policy (job : Tasks.Job) (globs : Globs) (chain : ChainRuntime) : MethodPolicy :=
  chain.methodRegistry.resolve globs (some (methodName job.call.body))

/-- The protocol of a job: none of its accesses is allowed where its chain does not resolve. -/
def jobProtocol (globs : Globs) (decode : String → String) (state : ProxyState) (job : Tasks.Job) :
    Protocol ChainAccess (fun op => op.2.Answer) Progress where
  allowed s op := ∃ chain, state.resolveChain decode job.call.chainId = .ok chain ∧
    (requestProtocol chain state.providersById (job.policy globs chain)).allowed s op
  next := Progress.next

/-- How a job ends: with the error of its chain, in the panic of `make_backoff`, or with what its loop ends
    with. -/
def Finished (globs : Globs) (decode : String → String) (tower : Tower) (state : ProxyState) (job : Tasks.Job)
    (s : Progress) (ending : HandlerEnd) : Prop :=
  match state.resolveChain decode job.call.chainId with
  | .error err => ending = .responded (.failure (buildChainErrorResponse job.call.body job.traceId err))
  | .ok chain =>
    (ending = .panicked ∧ ∃ b ∈ (job.policy globs chain).backoff, makeBackoff tower b = none) ∨
      ∃ loopEnd, Ended s loopEnd ∧ ending = respond job.call.body job.traceId loopEnd

theorem proxyHandlerImpl_follows {globs : Globs} {decode : String → String} {tower : Tower} {state : ProxyState}
    (hids : ∀ p handle, state.providersById.lookup p = some handle → handle.id = p)
    (hpool : ∀ value chain, state.resolveChain decode value = .ok chain →
      chain.providers = chain.loadBalancer.pool.ids) (job : Tasks.Job) :
    Follows (jobProtocol globs decode state job) (Finished globs decode tower state job) .start
      (Tasks.proxyHandlerImpl globs decode tower state job) := by
  unfold Tasks.proxyHandlerImpl Finished
  rcases hchain : state.resolveChain decode job.call.chainId with err | chain
  · exact Follows.done rfl
  · dsimp only
    split
    · rename_i hloop
      refine Follows.done (.inl ⟨rfl, ?_⟩)
      unfold Tasks.requestLoop at hloop
      split at hloop
      · cases hloop
      · rename_i b hb
        exact ⟨b, hb, Option.map_eq_none_iff.mp hloop⟩
    · rename_i loop hloop
      have hfollows : Follows (jobProtocol globs decode state job) Ended .start loop :=
        (requestLoop_follows hids (hpool _ _ hchain) hloop).weaken rfl fun s op hallowed => ⟨chain, hchain, hallowed⟩
      exact Follows.bind hfollows fun _ ending hended => Follows.done (.inr ⟨ending, hended, rfl⟩)

end Rpceth
