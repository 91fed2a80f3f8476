import ComputeRelay.Config
import ComputeRelay.Node.Rpc
import ComputeRelay.Storage
import ComputeRelay.Table

/-! Changes to the ledger's state that hold for one simulation only. -/

namespace ComputeRelay

structure AccountOverride where
  balance : Option Word := none
  storage : Table Word Word := []
deriving DecidableEq, Repr, Inhabited

abbrev StateOverride := Table Address AccountOverride

namespace StateOverride

def modify (s : StateOverride) (account : Address) (f : AccountOverride → AccountOverride) :
    StateOverride :=
  Table.insert s account (f ((Table.get? s account).getD {}))

def setBalance (s : StateOverride) (account : Address) (balance : Word) : StateOverride :=
  s.modify account fun a => { a with balance := some balance }

def store (s : StateOverride) (account : Address) (w : StorageWrite) : StateOverride :=
  s.modify account fun a => { a with storage := Table.insert a.storage w.slot w.value }

def toJson (s : StateOverride) : Json :=
  .object <| s.map fun (account, change) =>
    let balance := match change.balance with
      | some balance => [("balance", Json.ofQuantity balance.toNat)]
      | none => []
    let storage := match change.storage with
      | [] => []
      | writes =>
        [("stateDiff", Json.object (writes.map fun w => (Hash.toHex w.1, Json.ofHash w.2)))]
    (account.toHex, .object (balance ++ storage))

end StateOverride

/-- Enough for every prefund that a simulation asks for. -/
def simulationBalance : Word := BitVec.ofNat 256 1000000000000000000000000

/-- The state in which an operation is simulated behind others: its sender can pay, the responses
that the others write are cached, and a nonce of the system account that the ledger has not reached
is its next one. -/
def simulationState (config : Config) (behind : List Operation) (op : Operation) :
    StateOverride :=
  let state := StateOverride.setBalance [] op.sender simulationBalance
  let state :=
    if op.sender = config.systemAccount then
      state.store config.entryPoint (nonceWrite op.sender op.nonce)
    else state
  behind.foldl
    (fun state op =>
      match CacheWrite.decode? op.callData config.helper with
      | some (requestId, payload) =>
        (cacheWrites config.responseCacheSlot requestId payload).foldl
          (fun state w => state.store config.helper w) state
      | none => state)
    state

end ComputeRelay
