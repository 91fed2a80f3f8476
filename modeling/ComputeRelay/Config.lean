import ComputeRelay.Failure
import ComputeRelay.Text

/-! What the relay is configured with: where the ledger is, how long things may take, and what they
cost. -/

namespace ComputeRelay

structure ServiceConfig where
  method : String := "hc_offchainCall"
  timeoutMs : UInt64 := 5000
  maxResponseBytes : UInt64 := 65536
  maxPayloadBytes : UInt64 := 16384
deriving DecidableEq, Repr, Inhabited

structure WriteGas where
  verificationGasLimit : UInt64 := 120000
  callGasLimit : UInt64 := 250000
  preVerificationGas : UInt64 := 60000
deriving DecidableEq, Repr, Inhabited

structure FeeConfig where
  /-- Gas charged for every off-chain call. -/
  flatFeeGas : UInt64 := 25000
deriving DecidableEq, Repr, Inhabited

structure Config where
  chainId : UInt64
  nodeUrl : String
  entryPoint : Address
  /-- The contract that keeps registrations and cached responses. -/
  helper : Address
  /-- The account that sends every cache write. -/
  systemAccount : Address
  requestTimeoutMs : UInt64 := 10000
  fallbackGraceMs : UInt64 := 3000
  /-- How long a finished pair waits to be submitted. -/
  pendingTtlMs : UInt64 := 120000
  responseCacheSlot : UInt64 := 1
  service : ServiceConfig := {}
  writeGas : WriteGas := {}
  fees : FeeConfig := {}
deriving DecidableEq, Repr, Inhabited

namespace ServiceConfig

def shape : Json.Shape :=
  ⟨["method", "timeout_ms", "max_response_bytes", "max_payload_bytes"], true⟩

def ofJson? (v : Json) : Option ServiceConfig := do
  let s ← shape.slots? v
  return {
    method := ← s.required? "method" Json.text?
    timeoutMs := ← s.required? "timeout_ms" Json.uint64?
    maxResponseBytes := ← s.required? "max_response_bytes" Json.uint64?
    maxPayloadBytes := ← s.required? "max_payload_bytes" Json.uint64? }

def toJson (c : ServiceConfig) : Json :=
  .object [("method", .string c.method), ("timeout_ms", .ofUInt64 c.timeoutMs),
    ("max_response_bytes", .ofUInt64 c.maxResponseBytes),
    ("max_payload_bytes", .ofUInt64 c.maxPayloadBytes)]

end ServiceConfig

namespace WriteGas

def shape : Json.Shape :=
  ⟨["verification_gas_limit", "call_gas_limit", "pre_verification_gas"], true⟩

def ofJson? (v : Json) : Option WriteGas := do
  let s ← shape.slots? v
  return {
    verificationGasLimit := ← s.required? "verification_gas_limit" Json.uint64?
    callGasLimit := ← s.required? "call_gas_limit" Json.uint64?
    preVerificationGas := ← s.required? "pre_verification_gas" Json.uint64? }

def toJson (g : WriteGas) : Json :=
  .object [("verification_gas_limit", .ofUInt64 g.verificationGasLimit),
    ("call_gas_limit", .ofUInt64 g.callGasLimit),
    ("pre_verification_gas", .ofUInt64 g.preVerificationGas)]

end WriteGas

namespace FeeConfig

def shape : Json.Shape := ⟨["flat_fee_gas"], true⟩

def ofJson? (v : Json) : Option FeeConfig := do
  let s ← shape.slots? v
  return { flatFeeGas := ← s.required? "flat_fee_gas" Json.uint64? }

def toJson (f : FeeConfig) : Json := .object [("flat_fee_gas", .ofUInt64 f.flatFeeGas)]

end FeeConfig

namespace Config

def shape : Json.Shape where
  fields := ["chain_id", "node_url", "entry_point", "helper_address", "system_account",
    "request_timeout_ms", "fallback_grace_ms", "pending_ttl_ms", "response_cache_slot", "offchain",
    "injected", "fees"]
  closed := true

def ofJson? (v : Json) : Option Config := do
  let s ← shape.slots? v
  return {
    chainId := ← s.required? "chain_id" Json.uint64?
    nodeUrl := ← s.required? "node_url" Json.text?
    entryPoint := ← s.required? "entry_point" Json.address?
    helper := ← s.required? "helper_address" Json.address?
    systemAccount := ← s.required? "system_account" Json.address?
    requestTimeoutMs := ← s.optional? "request_timeout_ms" Json.uint64? 10000
    fallbackGraceMs := ← s.optional? "fallback_grace_ms" Json.uint64? 3000
    pendingTtlMs := ← s.optional? "pending_ttl_ms" Json.uint64? 120000
    responseCacheSlot := ← s.optional? "response_cache_slot" Json.uint64? 1
    service := ← s.optional? "offchain" ServiceConfig.ofJson? {}
    writeGas := ← s.optional? "injected" WriteGas.ofJson? {}
    fees := ← s.optional? "fees" FeeConfig.ofJson? {} }

def toJson (c : Config) : Json :=
  .object [("chain_id", .ofUInt64 c.chainId), ("node_url", .string c.nodeUrl),
    ("entry_point", .ofAddress c.entryPoint), ("helper_address", .ofAddress c.helper),
    ("system_account", .ofAddress c.systemAccount),
    ("request_timeout_ms", .ofUInt64 c.requestTimeoutMs),
    ("fallback_grace_ms", .ofUInt64 c.fallbackGraceMs),
    ("pending_ttl_ms", .ofUInt64 c.pendingTtlMs),
    ("response_cache_slot", .ofUInt64 c.responseCacheSlot), ("offchain", c.service.toJson),
    ("injected", c.writeGas.toJson), ("fees", c.fees.toJson)]

/-- The first fault that a configuration has. -/
def fault? (c : Config) : Option String :=
  let limit := c.requestTimeoutMs + c.fallbackGraceMs
  if trimBlanks c.nodeUrl.toList = [] then some "node_url is empty"
  else if c.entryPoint = 0 then some "entry_point is the zero address"
  else if c.helper = 0 then some "helper_address is the zero address"
  else if c.systemAccount = 0 then some "system_account is the zero address"
  else if c.requestTimeoutMs = 0 ∨ c.fallbackGraceMs = 0 then some "timeouts must be non-zero"
  else if c.pendingTtlMs ≤ limit then
    some ("pending_ttl_ms (" ++ toString c.pendingTtlMs.toNat ++
      ") must exceed request_timeout_ms + fallback_grace_ms")
  else if c.service.timeoutMs = 0 ∨ c.requestTimeoutMs ≤ c.service.timeoutMs then
    some ("offchain.timeout_ms (" ++ toString c.service.timeoutMs.toNat ++
      ") must be non-zero and below request_timeout_ms (" ++
      toString c.requestTimeoutMs.toNat ++ ")")
  else if trimBlanks c.service.method.toList = [] then some "offchain.method is empty"
  else if c.service.maxResponseBytes = 0 ∨ c.service.maxPayloadBytes = 0 ∨
      c.service.maxResponseBytes < c.service.maxPayloadBytes then
    some "offchain size limits must be non-zero and max_payload_bytes <= max_response_bytes"
  else none

def validate (c : Config) : Except ConfigError Unit :=
  match c.fault? with
  | some fault => .error (.invalid fault)
  | none => .ok ()

end Config

end ComputeRelay
