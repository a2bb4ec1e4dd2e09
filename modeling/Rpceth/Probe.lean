import Rpceth.Health
import Rpceth.Lib.Numeral

/-! `proxy-core/src/health/probe.rs`, and what the tasks of `HealthService::spawn` make of a probe. What the
    HTTP client does is an argument; the texts of its errors and of those of `serde_json` come with it. -/

namespace Rpceth
open Lib

/-- The fields of `ChainIdRequest` and of `BlockNumberRequest`. -/
structure RpcRequest where
  jsonrpc : String
  method : String
  params : List String
  id : UInt64

def RpcRequest.serialize (r : RpcRequest) : Json :=
  .object [("jsonrpc", .string r.jsonrpc), ("method", .string r.method), ("params", .array (r.params.map .string)),
    ("id", .number (toString r.id.toNat))]

/-- `client.post(url).header(..).json(&request)`. -/
structure Post where
  url : String
  headers : HeaderMap
  body : Json

/-- How `send` ends: with an error, or with a status and a body. The body is `none` where it is not JSON or not
    received to its end; `message` is the text of the error of `json`, where that fails. -/
inductive Reply where
  | transport (message : String)
  | answer (status : StatusCode) (body : Option Json) (message : String)

/-- A reply, and what `start.elapsed()` gives when the probe is done with it. -/
structure ProbeExchange where
  reply : Reply
  elapsed : Duration

/-- What deserializing an `Option<String>` gives. -/
def deserializeText : Json → Option (Option String)
  | .null => some none
  | .string s => some (some s)
  | _ => none

/-- What deserializing a `ChainIdResponse` or a `BlockNumberResponse` gives for the field `result`. Other fields
    are ignored, a missing one is `None`, and a field given twice is an error. The derived implementation takes
    the fields in an array, too. -/
def deserializeResult : Json → Option (Option String)
  | .object fields =>
    match fields.filter (·.1 == "result") with
    | [] => some none
    | [field] => deserializeText field.2
    | _ => none
  | .array [value] => deserializeText value
  | _ => none

/-- `text.trim_start_matches("0x")`. -/
def trimStart0x : List Char → List Char
  | '0' :: 'x' :: rest => trimStart0x rest
  | text => text

/-- `u64::from_str_radix(text, 16)`. -/
def fromStrRadix16 (text : List Char) : Option UInt64 :=
  match text with
  | [] | ['+'] | ['-'] => none
  | '+' :: digits => (readDigits hexDigit 16 (2 ^ 64) 0 digits).map .ofNat
  | digits => (readDigits hexDigit 16 (2 ^ 64) 0 digits).map .ofNat

/-- The number that the probe takes from a result. -/
def resultNumber (result : Option String) : UInt64 :=
  (fromStrRadix16 (trimStart0x (result.getD "").toList)).getD 0

namespace JsonRpcHealthProbe

def chainIdReq : RpcRequest where
  jsonrpc := "2.0"
  method := "eth_chainId"
  params := []
  id := 1

def blockReq : RpcRequest where
  jsonrpc := "2.0"
  method := "eth_blockNumber"
  params := []
  id := 2

def post (provider : ProviderHandle) (request : RpcRequest) : Post where
  url := provider.url
  headers := [("content-type", "application/json")]
  body := request.serialize

/-- The result of an answer, or the failure that ends the probe. -/
def receive (provider : ProviderHandle) (exchange : ProbeExchange) : Except ProbeFailureKind (Option String) :=
  let fail (reason : FailureReason) : Except ProbeFailureKind (Option String) :=
    .error ⟨provider.id, some exchange.elapsed, reason⟩
  match exchange.reply with
  | .transport message => fail (.transport message)
  | .answer status body message =>
    if status.isSuccess then
      match body.bind deserializeResult with
      | some result => .ok result
      | none => fail (.invalidPayload message)
    else fail (.http status.code)

def probe (client : Post → ProbeExchange) (provider : ProviderHandle) : Except ProbeFailureKind ProbeSuccess := do
  let chainIdHex ← receive provider (client (post provider chainIdReq))
  let chainId := resultNumber chainIdHex
  let blockResp := client (post provider blockReq)
  let blockHex ← receive provider blockResp
  let blockNumber := resultNumber blockHex
  pure {
    provider := provider.id
    latency := blockResp.elapsed
    blockNumber := blockNumber
    chainId := chainId
    methodSupportScore := 1 }

end JsonRpcHealthProbe

/-- The end of a task that `spawn` starts for a provider. -/
def HealthService.probed (h : HealthService) (now : Instant) :
    Except ProbeFailureKind ProbeSuccess → HealthService
  | .ok success => h.applySuccess now success
  | .error failure => h.applyFailure now failure

end Rpceth
