import ComputeRelay.Operation

/-! Requests for off-chain results, the responses to them, and the registrations that say where to
ask and who may answer. -/

namespace ComputeRelay

structure ComputeRequest where
  /-- The account whose contract asked. -/
  account : Address
  requestId : Hash
  /-- The parameters of the off-chain call, its four-byte selector first. -/
  callParams : Bytes
  /-- The time of the block against which the request was found. -/
  createdAt : UInt64
deriving DecidableEq, Repr, Inhabited

structure ComputeResponse where
  success : Bool
  /-- The encoded result; see `Payload`. -/
  payload : Bytes
  /-- The signer that was asked; verification does not look at it. -/
  signer : Address
  signature : Bytes
deriving DecidableEq, Repr, Inhabited

/-- Where an account's off-chain calls go, as registered at one block. -/
structure Registration where
  account : Address
  endpoint : String
  signer : Address
  block : BlockContext
deriving DecidableEq, Repr, Inhabited

inductive ErrorCode
  | none
  | other
  | timeout
  | unreachable
  | malformed
  | remoteFailure
deriving DecidableEq, Repr, Inhabited

namespace ErrorCode

def all : List ErrorCode := [.none, .other, .timeout, .unreachable, .malformed, .remoteFailure]

def toNat : ErrorCode → Nat
  | .none => 0
  | .other => 1
  | .timeout => 2
  | .unreachable => 3
  | .malformed => 4
  | .remoteFailure => 5

def toUInt32 (code : ErrorCode) : UInt32 := UInt32.ofNat code.toNat

def name : ErrorCode → String
  | .none => "None"
  | .other => "Other"
  | .timeout => "Timeout"
  | .unreachable => "Unreachable"
  | .malformed => "Malformed"
  | .remoteFailure => "RemoteFailure"

def ofUInt32? (n : UInt32) : Option ErrorCode := all.find? (·.toUInt32 == n)

def ofName? (s : String) : Option ErrorCode := all.find? (·.name == s)

/-- A code is written as its name; a member of that name with no value is read as well. -/
def ofJson? : Json → Option ErrorCode
  | .string s => ofName? s
  | .object [(s, .null)] => ofName? s
  | _ => Option.none

def toJson (code : ErrorCode) : Json := .string code.name

end ErrorCode

/-- The id of the request that an operation makes: the digest of the asking account, the
operation's sender and nonce, and the digest of the call parameters, in one word each. -/
def deriveRequestId (account sender : Address) (nonce : Word) (callParams : Bytes) : Hash :=
  keccak256 (account.toWord.toBytes ++ sender.toWord.toBytes ++ nonce.toBytes ++
    Word.toBytes (keccak256 callParams))

/-- The four bytes that choose the off-chain function. -/
def ComputeRequest.selector? (request : ComputeRequest) : Option Bytes :=
  if 4 ≤ request.callParams.length then some (request.callParams.take 4) else none

namespace ComputeRequest

def shape : Json.Shape := ⟨["account", "requestId", "callParams", "createdAt"], false⟩

def ofJson? (v : Json) : Option ComputeRequest := do
  let s ← shape.slots? v
  return {
    account := ← s.required? "account" Json.address?
    requestId := ← s.required? "requestId" Json.hash?
    callParams := ← s.required? "callParams" Json.bytes?
    createdAt := ← s.required? "createdAt" Json.uint64? }

def toJson (r : ComputeRequest) : Json :=
  .object [("account", .ofAddress r.account), ("requestId", .ofHash r.requestId),
    ("callParams", .ofBytes r.callParams), ("createdAt", .ofUInt64 r.createdAt)]

end ComputeRequest

namespace ComputeResponse

def shape : Json.Shape := ⟨["success", "payload", "signer", "signature"], false⟩

def ofJson? (v : Json) : Option ComputeResponse := do
  let s ← shape.slots? v
  return {
    success := ← s.required? "success" Json.bool?
    payload := ← s.required? "payload" Json.bytes?
    signer := ← s.required? "signer" Json.address?
    signature := ← s.required? "signature" Json.bytes? }

def toJson (r : ComputeResponse) : Json :=
  .object [("success", .bool r.success), ("payload", .ofBytes r.payload),
    ("signer", .ofAddress r.signer), ("signature", .ofBytes r.signature)]

end ComputeResponse

namespace Registration

def shape : Json.Shape := ⟨["account", "endpoint", "signer", "block"], false⟩

def ofJson? (v : Json) : Option Registration := do
  let s ← shape.slots? v
  return {
    account := ← s.required? "account" Json.address?
    endpoint := ← s.required? "endpoint" Json.text?
    signer := ← s.required? "signer" Json.address?
    block := ← s.required? "block" BlockContext.ofJson? }

def toJson (r : Registration) : Json :=
  .object [("account", .ofAddress r.account), ("endpoint", .string r.endpoint),
    ("signer", .ofAddress r.signer), ("block", r.block.toJson)]

end Registration

end ComputeRelay
