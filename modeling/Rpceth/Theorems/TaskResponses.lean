import Rpceth.Theorems.TaskAttempts

/-! What the status of a response says about the request behind it. -/

namespace Rpceth
open Lib Program

def HandlerEnd.response? : HandlerEnd → Option Response
  | .responded (.success response) | .responded (.failure response) => some response
  | .panicked | .pending => none

/-- An upstream node has answered the request with this. -/
def AnsweredWith (trace : List Event) (answer : ProviderResponse) : Prop := ∃ p, Event.forward p (.ok answer) ∈ trace

/-- Only a success is an answer. -/
theorem isSuccess_of_forward {x : Exchange} {timeout t : Duration} {answer : ProviderResponse}
    (h : forwardToProvider x timeout = some (t, .ok answer)) : answer.status.isSuccess = true := by
  obtain ⟨head, body⟩ := x
  unfold forwardToProvider at h
  dsimp only at h
  split at h
  · cases h
  · split at h <;> cases h
  · split at h
    · split at h
      · cases h
      · rename_i hstatus
        rw [Bool.not_eq_true, Bool.not_eq_false'] at hstatus
        split at h <;> cases h
        exact hstatus
    · cases h

theorem isSuccess_of_answered {log : AccessLog} {answer : ProviderResponse} (h : AnsweredWith (events log) answer) :
    answer.status.isSuccess = true := by
  obtain ⟨p, hmem⟩ := h
  obtain ⟨⟨m, key, access⟩, -, hevent⟩ := List.mem_filterMap.mp hmem
  cases access with
  | forward handle timeout =>
    obtain ⟨⟨t, result⟩, hforward, heq⟩ := Option.map_eq_some_iff.mp hevent
    cases heq
    exact isSuccess_of_forward hforward
  | readEntry | lockCursor | lockRng | isAvailable | onRequestStart | onSuccess | onFailure | delay => cases hevent

theorem mem_attemptEvents {trace : List Event} {p : ProviderId} {result : Except String ProviderResponse} :
    .forward p result ∈ attemptEvents trace ↔ .forward p result ∈ trace := by
  simp [attemptEvents, Event.isDelay]

/-- The attempts before the last one have all failed. -/
theorem answered_iff {chain : ChainRuntime} {byId : HashMap ProviderId ProviderHandle} {policy : MethodPolicy}
    {s : Progress} {log : AccessLog} (h : Accounts chain byId policy s log) {answer : ProviderResponse} :
    AnsweredWith (events log) answer ↔ ∃ p, .forward p (.ok answer) ∈ s.phase.events := by
  refine exists_congr fun p => ?_
  rw [← mem_attemptEvents, h.trace, Progress.events, List.mem_append]
  refine or_iff_right fun hfailed => ?_
  obtain ⟨f, -, hf⟩ := List.mem_flatMap.mp hfailed
  simp [failedAttempt] at hf

section Server
variable {globs : Globs} {decode : String → String} {tower : Tower} {config : ProxyConfig} {state : ProxyState}
  {ok : Server → Action Tasks.Job Input External → Prop} {memory : ServerMemory} {w : Server} {id : Nat}
  {t : RequestTask} {chain : ChainRuntime}

/-- The program of a request whose backoff the tower rejects is the panic. -/
theorem panicked_of_rejected (h : Reached (server globs decode tower state).step ok (.start memory) w)
    (ht : w.tasks id = some t) (hchain : state.resolveChain decode t.job.call.chainId = .ok chain) {b : ResolvedBackoff}
    (hb : b ∈ (t.job.policy globs chain).backoff) (hmake : makeBackoff tower b = none) :
    t.program = .done .panicked := by
  have hleads := task_leads h ht
  have hloop : Tasks.requestLoop chain state.providersById t.job.call.ctx (t.job.policy globs chain) tower = none := by
    unfold Tasks.requestLoop
    rw [Option.mem_def.mp hb]
    simp only [hmake, Option.map_none]
  have hcode : Tasks.proxyHandlerImpl globs decode tower state t.job = .done .panicked := by
    unfold Tasks.proxyHandlerImpl
    unfold Tasks.Job.policy at hloop
    simp only [hchain, hloop, pure_eq]
  rw [hcode, leads_done_iff] at hleads
  exact hleads.2

/-- The request is over and its chain resolves: it panicked, all its attempts failed, or the last one succeeded. -/
theorem ended_cases (hstate : ProxyState.new decode globs config = .ok state)
    (h : Reached (server globs decode tower state).step ok (.start memory) w) (ht : w.tasks id = some t)
    (hchain : state.resolveChain decode t.job.call.chainId = .ok chain) {ending : HandlerEnd}
    (hdone : t.program = .done ending) :
    (ending = .panicked ∧ ∃ b ∈ (t.job.policy globs chain).backoff, makeBackoff tower b = none) ∨
    (ending = .responded (.failure (buildErrorResponse t.job.call.body t.job.traceId (progress t.log).lastError)) ∧
      ∀ answer, ¬AnsweredWith (events t.log) answer) ∨
    ∃ answer, ending = .responded (.success (buildSuccessResponse answer t.job.traceId)) ∧
      ∀ other, AnsweredWith (events t.log) other ↔ other = answer := by
  have haccounts := task_accounts hstate h ht hchain
  have hfinished := task_finished hstate h ht hdone
  unfold Finished at hfinished
  rw [hchain] at hfinished
  rcases hfinished with hpanicked | ⟨loopEnd, hended, rfl⟩
  · exact .inl hpanicked
  · cases loopEnd with
    | success response =>
      obtain ⟨p, hphase⟩ := hended
      refine .inr (.inr ⟨response, rfl, fun other => ?_⟩)
      rw [answered_iff haccounts, hphase]
      simp [Phase.events]
    | exhausted lastError =>
      obtain ⟨hphase, rfl⟩ := hended
      refine .inr (.inl ⟨rfl, fun answer hanswered => ?_⟩)
      obtain ⟨p, hmem⟩ := (answered_iff haccounts).mp hanswered
      rw [hphase] at hmem
      cases hmem
    | pending => exact hended.elim

/-- What the response of a request tells about it. -/
structure Tells (decode : String → String) (state : ProxyState) (t : RequestTask) (response : Response) : Prop where
  traceId : ("x-trace-id", t.job.traceId) ∈ response.headers
  unsupported : response.status = 400 ↔ ∃ err, state.resolveChain decode t.job.call.chainId = .error err
  failed : response.status = 502 ↔ (∃ chain, state.resolveChain decode t.job.call.chainId = .ok chain) ∧
    ∀ answer, ¬AnsweredWith (events t.log) answer
  succeeded : 200 ≤ response.status ∧ response.status < 300 ↔
    ∃ answer, AnsweredWith (events t.log) answer ∧ response = buildSuccessResponse answer t.job.traceId
  error : (∀ answer, ¬AnsweredWith (events t.log) answer) →
    ∃ code message, response.body = .json (errorPayload (requestId t.job.call.body) code message)

theorem tells_unsupported {err : ChainError} (hchain : state.resolveChain decode t.job.call.chainId = .error err)
    (hlog : t.log = []) :
    Tells decode state t (buildChainErrorResponse t.job.call.body t.job.traceId err) := by
  have hnone : ∀ answer, ¬AnsweredWith (events t.log) answer := by simp [AnsweredWith, events, hlog]
  cases err with
  | unsupported value =>
    refine ⟨by simp [buildChainErrorResponse], ?_, ?_, ?_, fun _ => ⟨_, _, rfl⟩⟩
    · simp [buildChainErrorResponse, hchain]
    · simp [buildChainErrorResponse, hchain]
    · refine iff_of_false (by simp [buildChainErrorResponse]) ?_
      rintro ⟨answer, hanswered, -⟩
      exact hnone answer hanswered

theorem tells_failed (hchain : state.resolveChain decode t.job.call.chainId = .ok chain)
    (hnone : ∀ answer, ¬AnsweredWith (events t.log) answer) (lastError : Option String) :
    Tells decode state t (buildErrorResponse t.job.call.body t.job.traceId lastError) := by
  refine ⟨by simp [buildErrorResponse], ?_, ?_, ?_, fun _ => ⟨_, _, rfl⟩⟩
  · simp [buildErrorResponse, hchain]
  · simp [buildErrorResponse, hchain, hnone]
  · refine iff_of_false (by simp [buildErrorResponse]) ?_
    rintro ⟨answer, hanswered, -⟩
    exact hnone answer hanswered

theorem tells_succeeded {answer : ProviderResponse} (hchain : state.resolveChain decode t.job.call.chainId = .ok chain)
    (hanswered : AnsweredWith (events t.log) answer) :
    Tells decode state t (buildSuccessResponse answer t.job.traceId) := by
  have hsuccess := isSuccess_of_answered hanswered
  simp only [StatusCode.isSuccess, Bool.and_eq_true, decide_eq_true_eq] at hsuccess
  obtain ⟨hge, hlt⟩ := hsuccess
  have hne : answer.status.code ≠ 400 ∧ answer.status.code ≠ 502 := by
    constructor <;> intro heq <;> rw [heq] at hlt <;> exact absurd hlt (by decide)
  refine ⟨by simp [buildSuccessResponse], ?_, ?_, ?_, fun hnone => absurd hanswered (hnone answer)⟩
  · simp [buildSuccessResponse, hchain, hne.1]
  · refine iff_of_false hne.2 ?_
    rintro ⟨-, hnone⟩
    exact hnone answer hanswered
  · exact iff_of_true ⟨hge, hlt⟩ ⟨answer, hanswered, rfl⟩

end Server

end Rpceth
