import Mathlib.Data.List.Induction
import Rpceth.Server.Auth
import Rpceth.Theorems.Validation

/-! Which requests reach `proxy_handler_impl`. -/

namespace Rpceth
open Lib

/-- The value of the last parameter with a name. -/
def lastParam (name : String) (params : List (String × String)) : Option String :=
  ((params.filter fun param => param.1 == name).getLast?).map (·.2)

/-- The parameters of the query, if there is one. -/
def HttpRequest.params (req : HttpRequest) (parse : String → List (String × String)) : List (String × String) :=
  (req.query.map parse).getD []

theorem lastParam_concat (name : String) (params : List (String × String)) (param : String × String) :
    lastParam name (params ++ [param]) = if param.1 = name then some param.2 else lastParam name params := by
  unfold lastParam
  rw [List.filter_append, List.filter_singleton]
  by_cases h : param.1 = name
  · rw [if_pos h, beq_iff_eq.mpr h, cond_true, List.getLast?_append_of_ne_nil _ (List.cons_ne_nil _ _)]
    rfl
  · rw [if_neg h, beq_eq_false_iff_ne.mpr h, cond_false, List.append_nil]

/-- The loop over the parameters keeps the last key and the last override. -/
theorem readParams_eq (params : List (String × String)) :
    readParams params = (lastParam apiKeyParam params, (lastParam providerParam params).map ProviderId.mk) := by
  induction params using List.reverseRecOn with
  | nil => rfl
  | append_singleton params param ih =>
    obtain ⟨key, value⟩ := param
    have hne : apiKeyParam ≠ providerParam := by decide
    have hstep : readParams (params ++ [(key, value)]) =
        if key = apiKeyParam then (some value, (readParams params).2)
        else if key = providerParam then ((readParams params).1, some ⟨value⟩)
        else ((readParams params).1, (readParams params).2) := List.foldl_concat ..
    rw [hstep, ih, lastParam_concat, lastParam_concat]
    by_cases hkey : key = apiKeyParam
    · simp only [hkey, hne, ↓reduceIte]
    · by_cases hprovider : key = providerParam
      · simp only [hprovider, hne.symm, ↓reduceIte, Option.map_some]
      · simp only [hkey, hprovider, ↓reduceIte]

section Authentication
variable {parse : String → List (String × String)} {json : List UInt8 → Option Json} {state : ProxyState}
  {route : Route} {req : HttpRequest}

/-- The middleware runs the rest of the route with a request context only if the last key of the query is
    the key of the configuration. On the path of the metrics it runs it without one. -/
theorem authenticateRequest_eq_ok {α : Type} {next : Option RequestContext → α} {a : α}
    (h : authenticateRequest parse state req next = .ok a) :
    a = next none ∨ ∃ ctx, a = next (some ctx) ∧ lastParam apiKeyParam (req.params parse) = some state.apiKey ∧
      ctx.providerOverride = (lastParam providerParam (req.params parse)).map ProviderId.mk := by
  unfold authenticateRequest at h
  split at h
  · cases h
    exact .inl rfl
  · unfold HttpRequest.params
    cases hquery : req.query with
    | none =>
      simp only [hquery] at h
      cases h
    | some query =>
      simp only [hquery, readParams_eq] at h
      split at h
      · rename_i key hkey
        split at h
        · rename_i heq
          cases h
          exact .inr ⟨_, rfl, heq ▸ hkey, rfl⟩
        · cases h
      · cases h

theorem proxyHandlerDefault_eq_ok {ctx : Option RequestContext} {body : Option Json} {call : HandlerCall}
    (h : proxyHandlerDefault ctx body = .ok call) : ctx = some call.ctx := by
  unfold proxyHandlerDefault at h
  split at h <;> cases h
  rfl

theorem proxyHandlerWithChain_eq_ok {ctx : Option RequestContext} {chainId : Option String} {body : Option Json}
    {call : HandlerCall} (h : proxyHandlerWithChain ctx chainId body = .ok call) : ctx = some call.ctx := by
  unfold proxyHandlerWithChain at h
  split at h <;> cases h
  rfl

/-- A handler that needs the request context runs only behind the middleware. -/
theorem authenticated_of_handler {handler : Option RequestContext → Except Rejection HandlerCall} {call : HandlerCall}
    (hctx : ∀ ctx, handler ctx = .ok call → ctx = some call.ctx)
    (hauth : authenticateRequest parse state req handler = .ok (.ok call)) :
    lastParam apiKeyParam (req.params parse) = some state.apiKey ∧
      call.ctx.providerOverride = (lastParam providerParam (req.params parse)).map ProviderId.mk := by
  rcases authenticateRequest_eq_ok hauth with hnone | ⟨ctx, hsome, hkey, hover⟩
  · cases hctx none hnone.symm
  · obtain rfl := Option.some.inj (hctx (some ctx) hsome.symm)
    exact ⟨hkey, hover⟩

theorem serveRpc_eq_handled {call : HandlerCall} (h : serveRpc parse json state route req = .handled call) :
    lastParam apiKeyParam (req.params parse) = some state.apiKey ∧
      call.ctx.providerOverride = (lastParam providerParam (req.params parse)).map ProviderId.mk := by
  unfold serveRpc at h
  simp only at h
  split at h
  · cases h
  · cases h
  · rename_i served hauth
    cases h
    cases route with
    | default => exact authenticated_of_handler (fun _ => proxyHandlerDefault_eq_ok) hauth
    | withChain chainId => exact authenticated_of_handler (fun _ => proxyHandlerWithChain_eq_ok) hauth

theorem apiKey_new {decode : String → String} {globs : Globs} {config : ProxyConfig}
    (h : ProxyState.new decode globs config = .ok state) : state.apiKey = config.auth.apiKey := by
  unfold ProxyState.new at h
  simp only at h
  split at h
  · cases h
  · split at h <;> cases h <;> rfl

end Authentication

/-- With an accepted configuration only requests whose last key is the configured one, which is not
    blank, are handled. -/
theorem handled_authenticated (parse : String → List (String × String)) (json : List UInt8 → Option Json)
    (decode : String → String) (globs : Globs) (config : ProxyConfig) (hvalid : validate config = .ok ())
    (state : ProxyState) (hstate : ProxyState.new decode globs config = .ok state) (route : Route)
    (req : HttpRequest) (call : HandlerCall) (h : serveRpc parse json state route req = .handled call) :
    lastParam apiKeyParam (req.params parse) = some config.auth.apiKey ∧ trim config.auth.apiKey ≠ "" := by
  rw [← apiKey_new hstate]
  refine ⟨(serveRpc_eq_handled h).1, ?_⟩
  rw [apiKey_new hstate]
  exact (validate_eq_ok hvalid).apiKey

/-- A request on the default chain, with the key given twice. -/
theorem handled_authenticated_small :
    ∃ state call, ProxyState.new id literalGlobs smallConfig = .ok state ∧
      serveRpc (fun _ => [("apikey", "guess"), ("apikey", "secret")]) (fun _ => some .null) state .default
        ⟨"/", some "apikey=guess&apikey=secret", []⟩ = .handled call ∧
      lastParam apiKeyParam [("apikey", "guess"), ("apikey", "secret")] = some smallConfig.auth.apiKey := by
  refine ⟨_, _, rfl, rfl, ?_⟩
  exact (handled_authenticated (fun _ => [("apikey", "guess"), ("apikey", "secret")]) (fun _ => some .null) id
    literalGlobs smallConfig (by rfl) _ rfl .default ⟨"/", some "apikey=guess&apikey=secret", []⟩ _ rfl).1

end Rpceth
