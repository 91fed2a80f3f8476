import ComputeRelay.Config
import ComputeRelay.Http
import ComputeRelay.Json.Parser
import ComputeRelay.Json.Printer
import ComputeRelay.Request

/-! The calls to off-chain services: what is sent, and which replies are taken. -/

namespace ComputeRelay

structure ServiceResult where
  success : Bool
  payload : Bytes
  signature : Bytes
deriving DecidableEq, Repr

/-- A reply as the service writes it. -/
structure ServiceReply where
  version : String
  id : Json
  result : Option ServiceResult
  error : Option Json

namespace ServiceResult

def shape : Json.Shape := ⟨["success", "responsePayload", "signature"], true⟩

def ofJson? (v : Json) : Option ServiceResult := do
  let s ← shape.slots? v
  return {
    success := ← s.required? "success" Json.bool?
    payload := ← s.required? "responsePayload" Json.bytes?
    signature := ← s.required? "signature" Json.bytes? }

end ServiceResult

namespace ServiceReply

def shape : Json.Shape := ⟨["jsonrpc", "id", "result", "error"], true⟩

def ofJson? (v : Json) : Option ServiceReply := do
  guard (v.isClean && v.depth ≤ 127)
  let s ← shape.slots? v
  return {
    version := ← s.required? "jsonrpc" Json.text?
    id := ← s.required? "id" some
    result := ← s.optional? "result" (Json.nullable? ServiceResult.ofJson?) none
    error := ← s.optional? "error" (Json.nullable? some) none }

def ofBody? (body : Bytes) : Option ServiceReply := do
  ofJson? (← Json.parse? (← String.fromUTF8? ⟨body.toArray⟩))

end ServiceReply

namespace ServiceConfig

/-- What is posted to a service. Every call has its own id. -/
def callBody (c : ServiceConfig) (id : Nat) (request : ComputeRequest) : Json :=
  .object [("jsonrpc", .string "2.0"), ("id", .ofNat id), ("method", .string c.method),
    ("params", .object [("requestId", .ofHash request.requestId),
      ("sourceContract", .ofAddress request.account),
      ("callParams", .ofBytes request.callParams)])]

/-- Takes chunk after chunk, as long as they stay within the limit together. -/
def collect? (limit : Nat) : (chunks : List Bytes) → (taken : Bytes) → Option Bytes
  | [], taken => some taken
  | chunk :: rest, taken =>
    if limit < taken.length + chunk.length then none else collect? limit rest (taken ++ chunk)

/-- The result in the body of a reply to the call of this id. -/
def readBody (c : ServiceConfig) (id : Nat) (body : Bytes) : Except ServiceError ServiceResult :=
  match ServiceReply.ofBody? body with
  | none => .error (.malformed "invalid body: not a response")
  | some reply =>
    if reply.version != "2.0" then
      .error (.malformed ("unexpected jsonrpc version " ++ reply.version))
    else if reply.id != .ofNat id then
      .error (.malformed
        ("response id " ++ reply.id.sorted.compact ++ " does not match " ++ toString id))
    else
      match reply.error, reply.result with
      | some e, _ => .error (.malformed ("service returned error " ++ e.sorted.compact))
      | none, none => .error (.malformed "response has neither result nor error")
      | none, some result =>
        if result.signature.length ≠ 65 then
          .error (.malformed
            ("signature is " ++ toString result.signature.length ++ " bytes, expected 65"))
        else if c.maxPayloadBytes.toNat < result.payload.length then
          .error (.malformed ("payload exceeds " ++ toString c.maxPayloadBytes.toNat ++ " bytes"))
        else .ok result

/-- The response that a reply to the call of this id gives. -/
def readReply (c : ServiceConfig) (id : Nat) (registration : Registration) (reply : HttpReply) :
    Except ServiceError ComputeResponse :=
  let limit := c.maxResponseBytes.toNat
  let tooLong : ServiceError := .malformed ("response exceeds " ++ toString limit ++ " bytes")
  if !reply.isSuccess then .error (.unreachable ("endpoint answered " ++ reply.statusText))
  else if reply.declaredLength.any (limit < ·) then .error tooLong
  else
    match collect? limit reply.chunks [] with
    | none => .error tooLong
    | some body =>
      if !reply.isComplete then .error (.unreachable "the body broke off")
      else do
        let result ← c.readBody id body
        return ⟨result.success, result.payload, registration.signer, result.signature⟩

/-- What came of a call that ran to the end of its own time. -/
def readOutcome (c : ServiceConfig) (id : Nat) (registration : Registration) :
    HttpOutcome → Except ServiceError ComputeResponse
  | .reply reply => c.readReply id registration reply
  | .failed detail => .error (.unreachable detail)
  | .timedOut => .error .timeout

end ServiceConfig

/-- The services that registrations name, called over HTTP. The function that posts is given the
time that a call may take. -/
structure ServiceClient (m : Type → Type) where
  config : ServiceConfig
  post : HttpRequest → (limitMs : Nat) → m HttpOutcome

namespace ServiceClient

variable {m : Type → Type} [Monad m]

/-- Calls the registered service; `id` is not used by an earlier call. -/
def request (c : ServiceClient m) (id : Nat) (registration : Registration)
    (request : ComputeRequest) : m (Except ServiceError ComputeResponse) := do
  match (Url.parse? registration.endpoint).filter Url.isHttp with
  | none => return .error (.unreachable "not an address that can be called")
  | some url =>
    let outcome ← c.post ⟨url, (c.config.callBody id request).compact⟩ c.config.timeoutMs.toNat
    return c.config.readOutcome id registration outcome

end ServiceClient

end ComputeRelay
