import ComputeRelay.Abi
import ComputeRelay.Digest.Keccak
import ComputeRelay.Json.Record

/-! Operations, the gas they may use, and the blocks they run against. -/

namespace ComputeRelay

/-- A call that an account asks to have bundled and executed. -/
structure Operation where
  sender : Address
  nonce : Word
  initCode : Bytes := []
  callData : Bytes
  callGasLimit : Word := 0
  verificationGasLimit : Word := 0
  preVerificationGas : Word := 0
  maxFeePerGas : Word := 0
  maxPriorityFeePerGas : Word := 0
  paymasterAndData : Bytes := []
  signature : Bytes := []
deriving DecidableEq, Repr, Inhabited

structure GasEstimate where
  preVerificationGas : Word
  verificationGasLimit : Word
  callGasLimit : Word
deriving DecidableEq, Repr, Inhabited

structure BlockContext where
  number : UInt64
  hash : Hash
  timestamp : UInt64
deriving DecidableEq, Repr, Inhabited

namespace Operation

def withGas (op : Operation) (gas : GasEstimate) : Operation :=
  { op with
    preVerificationGas := gas.preVerificationGas
    verificationGasLimit := gas.verificationGasLimit
    callGasLimit := gas.callGasLimit }

def gas (op : Operation) : GasEstimate :=
  ⟨op.preVerificationGas, op.verificationGasLimit, op.callGasLimit⟩

/-- All the gas the operation may be charged for, or the largest word. -/
def totalGasLimit (op : Operation) : Word :=
  Word.saturatingAdd (Word.saturatingAdd op.preVerificationGas op.verificationGasLimit)
    op.callGasLimit

/-- The ten fields that a signature covers, each in one word. -/
def signedWords (op : Operation) : List Word :=
  [op.sender.toWord, op.nonce, keccak256 op.initCode, keccak256 op.callData, op.callGasLimit,
    op.verificationGasLimit, op.preVerificationGas, op.maxFeePerGas, op.maxPriorityFeePerGas,
    keccak256 op.paymasterAndData]

/-- The digest of an operation for one entry point on one chain. The signature is not part of it. -/
def hash (op : Operation) (entryPoint : Address) (chainId : UInt64) : Hash :=
  keccak256 (Word.toBytes (keccak256 (op.signedWords.flatMap Word.toBytes)) ++
    Word.toBytes entryPoint.toWord ++ Word.toBytes (Word.ofUInt64 chainId))

def abiArguments (op : Operation) : List Abi.Argument :=
  [.address op.sender, .word op.nonce, .bytes op.initCode, .bytes op.callData,
    .word op.callGasLimit, .word op.verificationGasLimit, .word op.preVerificationGas,
    .word op.maxFeePerGas, .word op.maxPriorityFeePerGas, .bytes op.paymasterAndData,
    .bytes op.signature]

def shape : Json.Shape where
  fields := ["sender", "nonce", "initCode", "callData", "callGasLimit", "verificationGasLimit",
    "preVerificationGas", "maxFeePerGas", "maxPriorityFeePerGas", "paymasterAndData", "signature"]
  closed := false

def ofJson? (v : Json) : Option Operation := do
  let s ← shape.slots? v
  return {
    sender := ← s.required? "sender" Json.address?
    nonce := ← s.required? "nonce" Json.word?
    initCode := ← s.optional? "initCode" Json.bytes? []
    callData := ← s.required? "callData" Json.bytes?
    callGasLimit := ← s.optional? "callGasLimit" Json.word? 0
    verificationGasLimit := ← s.optional? "verificationGasLimit" Json.word? 0
    preVerificationGas := ← s.optional? "preVerificationGas" Json.word? 0
    maxFeePerGas := ← s.optional? "maxFeePerGas" Json.word? 0
    maxPriorityFeePerGas := ← s.optional? "maxPriorityFeePerGas" Json.word? 0
    paymasterAndData := ← s.optional? "paymasterAndData" Json.bytes? []
    signature := ← s.optional? "signature" Json.bytes? [] }

def toJson (op : Operation) : Json :=
  .object [("sender", .ofAddress op.sender), ("nonce", .ofWord op.nonce),
    ("initCode", .ofBytes op.initCode), ("callData", .ofBytes op.callData),
    ("callGasLimit", .ofWord op.callGasLimit),
    ("verificationGasLimit", .ofWord op.verificationGasLimit),
    ("preVerificationGas", .ofWord op.preVerificationGas),
    ("maxFeePerGas", .ofWord op.maxFeePerGas),
    ("maxPriorityFeePerGas", .ofWord op.maxPriorityFeePerGas),
    ("paymasterAndData", .ofBytes op.paymasterAndData), ("signature", .ofBytes op.signature)]

end Operation

namespace GasEstimate

def shape : Json.Shape := ⟨["preVerificationGas", "verificationGasLimit", "callGasLimit"], false⟩

def ofJson? (v : Json) : Option GasEstimate := do
  let s ← shape.slots? v
  return {
    preVerificationGas := ← s.required? "preVerificationGas" Json.word?
    verificationGasLimit := ← s.required? "verificationGasLimit" Json.word?
    callGasLimit := ← s.required? "callGasLimit" Json.word? }

def toJson (gas : GasEstimate) : Json :=
  .object [("preVerificationGas", .ofWord gas.preVerificationGas),
    ("verificationGasLimit", .ofWord gas.verificationGasLimit),
    ("callGasLimit", .ofWord gas.callGasLimit)]

end GasEstimate

namespace BlockContext

def shape : Json.Shape := ⟨["number", "hash", "timestamp"], false⟩

def ofJson? (v : Json) : Option BlockContext := do
  let s ← shape.slots? v
  return {
    number := ← s.required? "number" Json.uint64?
    hash := ← s.required? "hash" Json.hash?
    timestamp := ← s.required? "timestamp" Json.uint64? }

def toJson (block : BlockContext) : Json :=
  .object [("number", .ofUInt64 block.number), ("hash", .ofHash block.hash),
    ("timestamp", .ofUInt64 block.timestamp)]

end BlockContext

end ComputeRelay
