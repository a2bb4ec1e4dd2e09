import Rpceth.Probe
import Rpceth.Theorems.HealthHistory

/-! Which answers of an upstream make a probe succeed. -/

namespace Rpceth
open Lib

/-! ### Numbers -/

/-- `0x` and then hexadecimal digits, at least one, that denote `n`. -/
def HexNumber (text : String) (n : UInt64) : Prop :=
  ∃ digits, text.toList = '0' :: 'x' :: digits ∧ digits ≠ [] ∧ Denotes hexDigit 16 digits n.toNat

theorem fromStrRadix16_digits {digits : List Char} {n : UInt64} (hne : digits ≠ [])
    (h : Denotes hexDigit 16 digits n.toNat) : fromStrRadix16 digits = some n := by
  have hread : (readDigits hexDigit 16 (2 ^ 64) 0 digits).map UInt64.ofNat = some n := by
    rw [(readDigits_iff (by decide) (by decide)).mpr ⟨n.toNat_lt, h⟩, Option.map_some, UInt64.ofNat_toNat]
  obtain ⟨ds, hds, -⟩ := h
  have hsign : ∀ c rest, digits = c :: rest → (hexDigit c).isSome := by
    rintro c rest rfl
    obtain ⟨d, -, hd, -⟩ := List.forall₂_cons_left_iff.mp hds
    exact Option.isSome_of_eq_some hd
  unfold fromStrRadix16
  split
  · exact absurd rfl hne
  · exact absurd (hsign _ _ rfl) (by decide)
  · exact absurd (hsign _ _ rfl) (by decide)
  · exact absurd (hsign _ _ rfl) (by decide)
  · exact hread

/-- A hexadecimal number has no second prefix to take off. -/
theorem trimStart0x_digits {digits : List Char} {n : Nat} (h : Denotes hexDigit 16 digits n) :
    trimStart0x digits = digits := by
  obtain ⟨ds, hds, -⟩ := h
  unfold trimStart0x
  split
  · rename_i rest
    obtain ⟨_, _, -, hrest, -⟩ := List.forall₂_cons_left_iff.mp hds
    obtain ⟨d, -, hx, -⟩ := List.forall₂_cons_left_iff.mp hrest
    rw [show hexDigit 'x' = none by decide] at hx
    cases hx
  · rfl

theorem resultNumber_hex {text : String} {n : UInt64} (h : HexNumber text n) : resultNumber (some text) = n := by
  obtain ⟨digits, htext, hne, hdenotes⟩ := h
  show (fromStrRadix16 (trimStart0x text.toList)).getD 0 = n
  rw [htext, trimStart0x, trimStart0x_digits hdenotes, fromStrRadix16_digits hne hdenotes]
  rfl

/-! ### Bodies -/

/-- The body is an object whose result is a hexadecimal number. -/
def Carries (body : Json) (n : UInt64) : Prop := ∃ text, body.get "result" = some (.string text) ∧ HexNumber text n

/-- The ways in which a body fails to carry a number: it has no result or one that is no text; the text has no
    `0x` in front, no digits, another character among them, or digits of a number that is too large. -/
def LacksNumber (body : Json) : Prop :=
  (∀ text, body.get "result" ≠ some (.string text)) ∨
    ∃ text, body.get "result" = some (.string text) ∧
      ((∀ digits, text.toList ≠ '0' :: 'x' :: digits) ∨
        ∃ digits, text.toList = '0' :: 'x' :: digits ∧
          (digits = [] ∨ (∃ c ∈ digits, hexDigit c = none) ∨ ∃ n, 2 ^ 64 ≤ n ∧ Denotes hexDigit 16 digits n))

theorem exists_hexNumber_iff {text : String} {digits : List Char} (htext : text.toList = '0' :: 'x' :: digits) :
    (∃ n, HexNumber text n) ↔
      ¬(digits = [] ∨ (∃ c ∈ digits, hexDigit c = none) ∨ ∃ n, 2 ^ 64 ≤ n ∧ Denotes hexDigit 16 digits n) := by
  constructor
  · rintro ⟨n, digits', htext', hne, hdenotes⟩ hbad
    cases htext.symm.trans htext'
    rcases hbad with hnil | ⟨c, hc, hnone⟩ | ⟨m, hlarge, hm⟩
    · exact hne hnil
    · exact exists_denotes_iff.mp ⟨_, hdenotes⟩ c hc hnone
    · have hlt := n.toNat_lt
      rw [← hm.unique hdenotes] at hlt
      omega
  · intro hgood
    obtain ⟨hne, hgood⟩ := not_or.mp hgood
    obtain ⟨hdigits, hsmall⟩ := not_or.mp hgood
    obtain ⟨n, hn⟩ := exists_denotes_iff.mpr fun c hc hnone => hdigits ⟨c, hc, hnone⟩
    have hlt : n < 2 ^ 64 := not_le.mp fun hlarge => hsmall ⟨n, hlarge, hn⟩
    refine ⟨.ofNatLT n hlt, digits, htext, hne, ?_⟩
    rw [UInt64.toNat_ofNatLT]
    exact hn

theorem exists_carries_iff {body : Json} : (∃ n, Carries body n) ↔ ¬LacksNumber body := by
  constructor
  · rintro ⟨n, text, hget, hhex⟩ (hnone | ⟨text', hget', hbad⟩)
    · exact hnone text hget
    · cases hget.symm.trans hget'
      obtain ⟨digits, htext, -⟩ := id hhex
      rcases hbad with hmarker | ⟨digits', htext', hbad⟩
      · exact hmarker digits htext
      · exact (exists_hexNumber_iff htext').mp ⟨n, hhex⟩ hbad
  · intro hgood
    obtain ⟨htext, hgood⟩ := not_or.mp hgood
    obtain ⟨text, hget⟩ := not_forall_not.mp htext
    obtain ⟨hmarker, hbad⟩ := not_or.mp fun hbad => hgood ⟨text, hget, hbad⟩
    obtain ⟨digits, hdigits⟩ := not_forall_not.mp hmarker
    obtain ⟨n, hhex⟩ := (exists_hexNumber_iff hdigits).mpr fun h => hbad ⟨digits, hdigits, h⟩
    exact ⟨n, text, hget, hhex⟩

theorem deserializeResult_get {body : Json} {text : String} {result : Option String}
    (hget : body.get "result" = some (.string text)) (h : deserializeResult body = some result) :
    result = some text := by
  cases body with
  | object fields =>
    obtain ⟨before, after, rfl, hbefore⟩ := List.lookup_eq_some_iff.mp hget
    have hnone : before.filter (·.1 == "result") = [] := by
      refine List.filter_eq_nil_iff.mpr fun field hfield heq => ?_
      have hne := hbefore field hfield
      rw [beq_iff_eq.mp heq] at hne
      cases hne
    have hfields : (before ++ ("result", Json.string text) :: after).filter (·.1 == "result") =
        ("result", .string text) :: after.filter (·.1 == "result") := by
      simp [List.filter_append, hnone]
    simp only [deserializeResult, hfields] at h
    -- A second field of the name is refused.
    cases hafter : after.filter (·.1 == "result") with
    | nil =>
      rw [hafter] at h
      exact (Option.some.inj h).symm
    | cons field rest =>
      rw [hafter] at h
      cases h
  | _ => cases hget

/-! ### Probes -/

namespace JsonRpcHealthProbe

/-- A success status with a body that can be deserialized. -/
def Accepted (x : ProbeExchange) (body : Json) : Prop :=
  ∃ status message, x.reply = .answer status (some body) message ∧ status.isSuccess = true ∧
    (deserializeResult body).isSome

/-- The body of the answer carries the number `n`. -/
def Answers (x : ProbeExchange) (n : UInt64) : Prop :=
  ∃ status body message, x.reply = .answer status (some body) message ∧ Carries body n

section
variable {client : Post → ProbeExchange} {provider : ProviderHandle} {x : ProbeExchange}

theorem receive_ok_iff {result : Option String} : receive provider x = .ok result ↔
    ∃ status body message, x.reply = .answer status (some body) message ∧ status.isSuccess = true ∧
      deserializeResult body = some result := by
  obtain ⟨reply, elapsed⟩ := x
  cases reply with
  | transport message => simp [receive]
  | answer status body message =>
    cases body with
    | none => cases hstatus : status.isSuccess <;> simp [receive, hstatus]
    | some body =>
      cases hstatus : status.isSuccess with
      | false => simp [receive, hstatus]
      | true => cases hresult : deserializeResult body <;> simp [receive, hstatus, hresult]

theorem receive_error {failure : ProbeFailureKind} (h : receive provider x = .error failure) :
    failure.provider = provider.id := by
  unfold receive at h
  split at h
  · cases h
    rfl
  · split at h
    · split at h
      · cases h
      · cases h
        rfl
    · cases h
      rfl

theorem receive_ok {result : Option String} (h : receive provider x = .ok result) : ∃ body, Accepted x body := by
  obtain ⟨status, body, message, hreply, hstatus, hresult⟩ := receive_ok_iff.mp h
  exact ⟨body, status, message, hreply, hstatus, Option.isSome_of_eq_some hresult⟩

theorem Accepted.receive {body : Json} (h : Accepted x body) (provider : ProviderHandle) :
    ∃ result, receive provider x = .ok result := by
  obtain ⟨status, message, hreply, hstatus, hsome⟩ := h
  obtain ⟨result, hresult⟩ := Option.isSome_iff_exists.mp hsome
  exact ⟨result, receive_ok_iff.mpr ⟨status, body, message, hreply, hstatus, hresult⟩⟩

/-- The answer that is accepted carries a number if its body does. -/
theorem Accepted.answers_iff {body : Json} (h : Accepted x body) : (∃ n, Answers x n) ↔ ¬LacksNumber body := by
  obtain ⟨status, message, hreply, -⟩ := h
  rw [← exists_carries_iff]
  constructor
  · rintro ⟨n, status', body', message', hreply', hcarries⟩
    cases hreply.symm.trans hreply'
    exact ⟨n, hcarries⟩
  · rintro ⟨n, hcarries⟩
    exact ⟨n, status, body, message, hreply, hcarries⟩

/-- The number that an answer carries is the one that is taken from it. -/
theorem Answers.resultNumber_eq {n : UInt64} (h : Answers x n) {result : Option String}
    (hreceive : receive provider x = .ok result) : resultNumber result = n := by
  obtain ⟨status, body, message, hreply, text, hget, hhex⟩ := h
  obtain ⟨status', body', message', hreply', -, hresult⟩ := receive_ok_iff.mp hreceive
  cases hreply.symm.trans hreply'
  rw [deserializeResult_get hget hresult]
  exact resultNumber_hex hhex

theorem probe_eq (client : Post → ProbeExchange) (provider : ProviderHandle) : probe client provider =
    (receive provider (client (post provider chainIdReq))).bind fun chainIdHex =>
      (receive provider (client (post provider blockReq))).map fun blockHex =>
        ⟨provider.id, (client (post provider blockReq)).elapsed, resultNumber blockHex, resultNumber chainIdHex, 1⟩ :=
  rfl

theorem probe_ok_iff {success : ProbeSuccess} : probe client provider = .ok success ↔
    ∃ chainIdHex blockHex, receive provider (client (post provider chainIdReq)) = .ok chainIdHex ∧
      receive provider (client (post provider blockReq)) = .ok blockHex ∧
      success = ⟨provider.id, (client (post provider blockReq)).elapsed, resultNumber blockHex,
        resultNumber chainIdHex, 1⟩ := by
  rw [probe_eq]
  cases receive provider (client (post provider chainIdReq)) with
  | error failure => simp [Except.bind]
  | ok chainIdHex =>
    cases receive provider (client (post provider blockReq)) with
    | error failure => simp [Except.bind, Except.map]
    | ok blockHex => simp [Except.bind, Except.map, @eq_comm _ success]

theorem probe_error {failure : ProbeFailureKind} (h : probe client provider = .error failure) :
    failure.provider = provider.id := by
  rw [probe_eq] at h
  cases hfirst : receive provider (client (post provider chainIdReq)) with
  | error first =>
    rw [hfirst] at h
    cases h
    exact receive_error hfirst
  | ok chainIdHex =>
    cases hsecond : receive provider (client (post provider blockReq)) with
    | error second =>
      rw [hfirst, hsecond] at h
      cases h
      exact receive_error hsecond
    | ok blockHex =>
      rw [hfirst, hsecond] at h
      cases h

end

/-- A probe succeeds only with the numbers that both answers carry, and where one of them carries none the
    service counts a failure of the provider. -/
def SucceedsOnlyOnValid (client : Post → ProbeExchange) (provider : ProviderHandle) : Prop :=
  (∀ success, probe client provider = .ok success → Answers (client (post provider chainIdReq)) success.chainId ∧
    Answers (client (post provider blockReq)) success.blockNumber) ∧
  ((¬∃ c b, Answers (client (post provider chainIdReq)) c ∧ Answers (client (post provider blockReq)) b) →
    ∃ failure, probe client provider = .error failure ∧ failure.provider = provider.id ∧
      ∀ (h : HealthService) now, h.probed now (probe client provider) = h.applyFailure now failure)

/-- A probe succeeds only on valid answers, unless both answers are accepted and one of them lacks its number. -/
theorem succeedsOnlyOnValid_iff (client : Post → ProbeExchange) (provider : ProviderHandle) :
    SucceedsOnlyOnValid client provider ↔
      ¬∃ chainIdBody blockBody, Accepted (client (post provider chainIdReq)) chainIdBody ∧
        Accepted (client (post provider blockReq)) blockBody ∧ (LacksNumber chainIdBody ∨ LacksNumber blockBody) := by
  constructor
  · rintro ⟨hvalid, -⟩ ⟨chainIdBody, blockBody, hfirst, hsecond, hlacks⟩
    obtain ⟨chainIdHex, hchainId⟩ := hfirst.receive provider
    obtain ⟨blockHex, hblock⟩ := hsecond.receive provider
    obtain ⟨hc, hb⟩ := hvalid _ (probe_ok_iff.mpr ⟨chainIdHex, blockHex, hchainId, hblock, rfl⟩)
    rcases hlacks with hlacks | hlacks
    · exact hfirst.answers_iff.mp ⟨_, hc⟩ hlacks
    · exact hsecond.answers_iff.mp ⟨_, hb⟩ hlacks
  · intro h
    have hvalid : ∀ success, probe client provider = .ok success →
        Answers (client (post provider chainIdReq)) success.chainId ∧
        Answers (client (post provider blockReq)) success.blockNumber := by
      intro success hok
      obtain ⟨chainIdHex, blockHex, hchainId, hblock, rfl⟩ := probe_ok_iff.mp hok
      obtain ⟨chainIdBody, hfirst⟩ := receive_ok hchainId
      obtain ⟨blockBody, hsecond⟩ := receive_ok hblock
      obtain ⟨c, hc⟩ := hfirst.answers_iff.mpr fun hlacks => h ⟨_, _, hfirst, hsecond, .inl hlacks⟩
      obtain ⟨b, hb⟩ := hsecond.answers_iff.mpr fun hlacks => h ⟨_, _, hfirst, hsecond, .inr hlacks⟩
      rw [hc.resultNumber_eq hchainId, hb.resultNumber_eq hblock]
      exact ⟨hc, hb⟩
    refine ⟨hvalid, fun hnone => ?_⟩
    cases hprobe : probe client provider with
    | ok success =>
      obtain ⟨hc, hb⟩ := hvalid success hprobe
      exact absurd ⟨_, _, hc, hb⟩ hnone
    | error failure => exact ⟨failure, rfl, probe_error hprobe, fun _ _ => rfl⟩

/-- Every request is answered with an error object. -/
def erroring : Post → ProbeExchange := fun _ =>
  { reply := .answer ⟨200, "200 OK"⟩ (some (.object [("jsonrpc", .string "2.0"), ("id", .number "1"),
      ("error", .object [("code", .number "-32601"), ("message", .string "method not found")])])) ""
    elapsed := 0 }

/-- Two error objects make a success, with chain 0 and block 0. -/
theorem not_always_succeedsOnlyOnValid : ¬∀ client provider, SucceedsOnlyOnValid client provider := by
  intro hall
  have hok : probe erroring firstProvider = .ok ⟨⟨"a"⟩, 0, 0, 0, 1⟩ := rfl
  obtain ⟨⟨status, body, message, hreply, text, hget, -⟩, -⟩ := (hall erroring firstProvider).1 _ hok
  cases hreply
  cases hget

end JsonRpcHealthProbe

/-! ### What a service makes of them -/

/-- A probe as a result that is reported to a service. -/
def ProbeResult.ofProbe (now : Instant) : Except ProbeFailureKind ProbeSuccess → ProbeResult
  | .ok r => .success now r
  | .error r => .failure now r

/-- A task that `spawn` starts: the provider, what its upstream answers, and when the probe is reported. -/
structure ProbeTask where
  provider : ProviderHandle
  client : Post → ProbeExchange
  now : Instant

namespace ProbeTask
open JsonRpcHealthProbe

def result (task : ProbeTask) : ProbeResult := .ofProbe task.now (probe task.client task.provider)

/-- A probe reports for its own provider, and a success of it reports support for every method. -/
theorem result_spec (task : ProbeTask) : task.result.provider = task.provider.id ∧ task.result.Full := by
  unfold result
  cases hprobe : probe task.client task.provider with
  | ok success =>
    obtain ⟨-, -, -, -, rfl⟩ := probe_ok_iff.mp hprobe
    exact ⟨rfl, rfl⟩
  | error failure => exact ⟨probe_error hprobe, trivial⟩

end ProbeTask

namespace HealthService

theorem probed_eq_apply (h : HealthService) (now : Instant) (result : Except ProbeFailureKind ProbeSuccess) :
    h.probed now result = h.apply (.ofProbe now result) := by
  cases result <;> rfl

/-- The tasks in the order in which they end. -/
def runTasks (h : HealthService) (tasks : List ProbeTask) : HealthService :=
  tasks.foldl (fun h task => h.probed task.now (JsonRpcHealthProbe.probe task.client task.provider)) h

/-- Whatever the upstreams answer, the tasks replay results that each report full support or a failure. -/
theorem runTasks_eq_replay (h : HealthService) (tasks : List ProbeTask) :
    h.runTasks tasks = h.replay (tasks.map ProbeTask.result) ∧ ∀ r ∈ tasks.map ProbeTask.result, r.Full := by
  constructor
  · induction tasks generalizing h with
    | nil => rfl
    | cons task tasks ih =>
      have hfirst : h.probed task.now (JsonRpcHealthProbe.probe task.client task.provider) = h.apply task.result :=
        h.probed_eq_apply task.now _
      show runTasks (h.probed task.now (JsonRpcHealthProbe.probe task.client task.provider)) tasks = _
      rw [hfirst, ih]
      rfl
  · intro r hr
    obtain ⟨task, -, rfl⟩ := List.mem_map.mp hr
    exact task.result_spec.2

end HealthService
end Rpceth
