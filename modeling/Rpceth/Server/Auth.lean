import Rpceth.Server.State

/-! `proxy-server/src/lib.rs`: the way of a request from the router through the authentication middleware
    and the extractors to `proxy_handler_impl`. `parse` stands for `form_urlencoded::parse` of the `url`
    crate; the router of `axum` calls the middleware on both RPC routes. -/

namespace Rpceth

structure RequestContext where
  providerOverride : Option ProviderId := none
  deriving DecidableEq, Repr

def apiKeyParam : String := "apikey"

def providerParam : String := "provider_id"

structure HttpRequest where
  path : String
  query : Option String
  body : List UInt8

def unauthorizedResponse : Response where
  status := 401
  headers := [("content-type", "application/json")]
  body := .json (.object [("error", .object [("code", .number "-32000"), ("message", .string "unauthorized")])])

/-- The key and the override in the parameters: the last one of each counts. -/
def readParams (params : List (String × String)) : Option String × Option ProviderId :=
  params.foldl (fun (providedKey, providerOverride) (key, value) =>
    if key = apiKeyParam then (some value, providerOverride)
    else if key = providerParam then (providedKey, some ⟨value⟩)
    else (providedKey, providerOverride)) (none, none)

/-- `next` runs the rest of the route; its argument is the request context that the middleware put into
    the extensions of the request, if it did. -/
def authenticateRequest {α : Type} (parse : String → List (String × String)) (state : ProxyState)
    (req : HttpRequest) (next : Option RequestContext → α) : Except Response α :=
  if req.path = "/metrics" then .ok (next none)
  else
    let (providedKey, providerOverride) := match req.query with
      | some query => readParams (parse query)
      | none => (none, none)
    match providedKey with
    | some key => if key = state.apiKey then .ok (next (some { providerOverride })) else .error unauthorizedResponse
    | none => .error unauthorizedResponse

/-- Why `axum` rejects a request before its handler runs. -/
inductive Rejection where
  | missingExtension
  | invalidPath
  | invalidJson
  deriving DecidableEq, Repr

/-- The routes behind the middleware. The path parameter may fail to decode. -/
inductive Route where
  | default
  | withChain (chainId : Option String)

/-- A call of `proxy_handler_impl`. -/
structure HandlerCall where
  ctx : RequestContext
  chainId : Option String
  body : Json

def proxyHandlerDefault (ctx : Option RequestContext) (body : Option Json) : Except Rejection HandlerCall :=
  match ctx, body with
  | none, _ => .error .missingExtension
  | some _, none => .error .invalidJson
  | some ctx, some body => .ok ⟨ctx, none, body⟩

def proxyHandlerWithChain (ctx : Option RequestContext) (chainId : Option String) (body : Option Json) :
    Except Rejection HandlerCall :=
  match ctx, chainId, body with
  | none, _, _ => .error .missingExtension
  | some _, none, _ => .error .invalidPath
  | some _, some _, none => .error .invalidJson
  | some ctx, some chainId, some body => .ok ⟨ctx, some chainId, body⟩

/-- What becomes of a request. -/
inductive Served where
  | unauthorized (response : Response)
  | rejected (reason : Rejection)
  | handled (call : HandlerCall)

/-- `json` is the `Json` extractor. -/
def serveRpc (parse : String → List (String × String)) (json : List UInt8 → Option Json) (state : ProxyState)
    (route : Route) (req : HttpRequest) : Served :=
  let handler (ctx : Option RequestContext) : Except Rejection HandlerCall := match route with
    | .default => proxyHandlerDefault ctx (json req.body)
    | .withChain chainId => proxyHandlerWithChain ctx chainId (json req.body)
  match authenticateRequest parse state req handler with
  | .error response => .unauthorized response
  | .ok (.error reason) => .rejected reason
  | .ok (.ok call) => .handled call

end Rpceth
