import ComputeRelay.Contract
import ComputeRelay.Node.Override
import ComputeRelay.Simulation
import ComputeRelay.Url

/-! Reading the ledger through a node: its latest block, what contracts answer, and how an operation
would go. -/

namespace ComputeRelay

structure NodeClient (m : Type → Type) where
  config : Config
  call : RpcCall → m RpcReply

def Config.nodeAddress (c : Config) : Except ConfigError Url :=
  match Url.parse? c.nodeUrl with
  | some url => .ok url
  | none => .error (.invalid "node_url: not an address")

/-- The block against which a call runs: by its hash, or by its number when no hash is known. -/
def BlockContext.reference (block : BlockContext) : Json :=
  if block.hash = 0 then .ofQuantity block.number.toNat
  else .object [("blockHash", .ofHash block.hash)]

/-- A call of a contract that is not put on the ledger. -/
structure ContractCall where
  caller : Option Address := none
  target : Address
  gas : Option Nat := none
  data : Bytes

def ContractCall.toJson (c : ContractCall) : Json :=
  let caller := match c.caller with
    | some caller => [("from", Json.ofAddress caller)]
    | none => []
  let gas := match c.gas with
    | some gas => [("gas", Json.ofQuantity gas)]
    | none => []
  .object ([("type", .string "0x00")] ++ caller ++ [("to", .ofAddress c.target)] ++ gas ++
    [("data", .ofBytes c.data)])

inductive CallEnd
  | returned (data : Bytes)
  | reverted (data : Bytes)
  | failed (detail : String)

namespace CallEnd

def ofReply : RpcReply → CallEnd
  | .result v =>
    match v.hexBytes? with
    | some data => .returned data
    | none => .failed "the result is not a byte string"
  | .refused e =>
    match e.revertData? with
    | some data => .reverted data
    | none => .failed e.describe
  | .broken detail => .failed detail

def returned? : CallEnd → Except LedgerError Bytes
  | .returned data => .ok data
  | .reverted _ => .error (.transport "the call reverted")
  | .failed detail => .error (.transport detail)

end CallEnd

namespace BlockContext

/-- The members of a block that are not used but have to be well formed when they are written. -/
def otherMembers : List (String × (Json → Bool)) :=
  let hash (v : Json) : Bool := (v.fixedBytes? 32).isSome
  let quantity (v : Json) : Bool := (v.quantity? 32).isSome
  let bytes (v : Json) : Bool := v.hexBytes?.isSome
  let orNull (check : Json → Bool) (v : Json) : Bool := v == .null || check v
  let each (check : Json → Bool) (v : Json) : Bool := v.items?.any (·.all check)
  [("parentHash", hash), ("sha3Uncles", hash),
    ("miner", orNull fun v => (v.fixedBytes? 20).isSome), ("stateRoot", hash),
    ("transactionsRoot", hash), ("receiptsRoot", hash), ("gasUsed", quantity),
    ("gasLimit", quantity), ("extraData", bytes),
    ("logsBloom", orNull fun v => (v.fixedBytes? 256).isSome), ("difficulty", quantity),
    ("totalDifficulty", orNull quantity), ("sealFields", orNull (each bytes)),
    ("uncles", each hash), ("transactions", each hash), ("size", orNull quantity),
    ("mixHash", orNull hash), ("nonce", orNull fun v => (v.fixedBytes? 8).isSome),
    ("baseFeePerGas", orNull quantity), ("blobGasUsed", orNull quantity),
    ("excessBlobGas", orNull quantity), ("withdrawalsRoot", orNull hash),
    ("parentBeaconBlockRoot", orNull hash)]

/-- Reads a block whose number may be missing. A missing hash is zero. Only the low 64 bits of the
timestamp count. -/
def ofNode? (v : Json) : Option (Option UInt64 × Hash × UInt64) := do
  let .object members := v | none
  let known := ["hash", "number", "timestamp"] ++ otherMembers.map (·.1)
  guard ((members.filter fun m => known.contains m.1).map (·.1)).Nodup
  guard (v.isClean && v.depth ≤ 127)
  guard (otherMembers.all fun (name, check) => (members.lookup name).all check)
  let slots : Json.Slots := members
  let number ← slots.optional? "number" (Json.nullable? (Json.quantity? 8)) none
  let hash ← slots.optional? "hash" (Json.nullable? (Json.fixedBytes? 32)) none
  let timestamp ← slots.optional? "timestamp" (Json.quantity? 32) 0
  return (number.map UInt64.ofNat, (hash.map Word.ofBytes).getD 0, UInt64.ofNat timestamp)

def ofReply : RpcReply → Except LedgerError BlockContext
  | .result .null => .error (.decode "node has no latest block")
  | .result v =>
    match ofNode? v with
    | some (some number, hash, timestamp) => .ok ⟨number, hash, timestamp⟩
    | some (none, _, _) => .error (.decode "latest block has no number")
    | none => .error (.transport "the result is not a block")
  | .refused e => .error (.transport e.describe)
  | .broken detail => .error (.transport detail)

end BlockContext

def simulationGas : Nat := 30000000

/-- The single price at which an operation is simulated: dividing what was paid by it gives the gas
that was charged. -/
def Operation.simulationPrice (op : Operation) : Word := Word.larger 1 op.maxFeePerGas

/-- The operation with both of its fees at the price of its simulation. -/
def Operation.atOnePrice (op : Operation) : Operation :=
  { op with maxFeePerGas := op.simulationPrice, maxPriorityFeePerGas := op.simulationPrice }

/-- The call that has the entry point simulate an operation. -/
def Config.simulationCall (c : Config) (op : Operation) : ContractCall where
  target := c.entryPoint
  gas := some simulationGas
  data := simulateCall op.atOnePrice

/-- The execution of an operation alone, as the entry point would call its account. -/
def Config.executionCall (c : Config) (op : Operation) : ContractCall where
  caller := some c.entryPoint
  target := op.sender
  gas := some simulationGas
  data := op.callData

namespace Simulation

/-- The outcome of an operation that the entry point refused. -/
def refused (revertData : Bytes) (block : BlockContext) : Simulation where
  revertData
  validationError := some <| match FailedOp.decode? revertData with
    | some failed => failed.reason
    | none => "unrecognised simulation revert " ++ revertData.toHex
  block

/-- The outcome of an operation that the entry point ran. The gas charged is that of its
verification, less what it pays in advance, and that of its call. -/
def ofResult (op : Operation) (block : BlockContext) (result : ExecutionResult) (success : Bool)
    (revertData : Bytes) : Simulation where
  success
  revertData
  verificationGas := Word.saturatingSub result.preOpGas op.preVerificationGas
  callGas := Word.saturatingSub (result.paid / op.simulationPrice) result.preOpGas
  block

end Simulation

namespace NodeClient

variable {m : Type → Type} [Monad m]

def callContract (c : NodeClient m) (call : ContractCall) (block : BlockContext)
    (state : Option StateOverride) : m CallEnd := do
  let params := [call.toJson, block.reference] ++ (state.map StateOverride.toJson).toList
  return .ofReply (← c.call ⟨"eth_call", params⟩)

def latestBlock (c : NodeClient m) : m (Except LedgerError BlockContext) := do
  return BlockContext.ofReply (← c.call ⟨"eth_getBlockByNumber", [.string "latest", .bool false]⟩)

def registryRow (c : NodeClient m) (account : Address) (block : BlockContext) :
    m (Except LedgerError RegistryRow) := do
  let answer ← c.callContract { target := c.config.helper, data := RegistryRow.call account } block
    none
  return do
    match RegistryRow.decode? (← answer.returned?) with
    | some row => .ok row
    | none => .error (.decode "not a registration")

/-- The next nonce of an account at the latest block. -/
def nonce (c : NodeClient m) (account : Address) : m (Except LedgerError Word) := do
  match ← c.latestBlock with
  | .error e => return .error e
  | .ok block =>
    let answer ← c.callContract { target := c.config.entryPoint, data := getNonceCall account }
      block none
    return do
      match decodeWord? (← answer.returned?) with
      | some nonce => .ok nonce
      | none => .error (.decode "not a nonce")

/-- Simulates an operation behind others: first as a whole, then its call alone, for what that
reverts with. -/
def simulate (c : NodeClient m) (behind : List Operation) (op : Operation)
    (block : BlockContext) : m (Except LedgerError Simulation) := do
  let state := simulationState c.config behind op
  match ← c.callContract (c.config.simulationCall op) block (some state) with
  | .failed detail => return .error (.transport detail)
  | .returned _ => return .error (.decode "simulateHandleOp returned instead of reverting")
  | .reverted data =>
    match ExecutionResult.decode? data with
    | none => return .ok (.refused data block)
    | some result =>
      match ← c.callContract (c.config.executionCall op) block (some state) with
      | .failed detail => return .error (.transport detail)
      | .returned _ => return .ok (.ofResult op block result true [])
      | .reverted data => return .ok (.ofResult op block result false data)

end NodeClient

end ComputeRelay
