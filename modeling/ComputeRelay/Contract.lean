import ComputeRelay.Request

/-! The messages of the contracts involved: the helper that keeps registrations and cached
responses, the accounts, and the entry point. A selector is the first four bytes of the Keccak
digest of the message's signature. -/

namespace ComputeRelay

open Abi

/-- The revert of a call whose off-chain result is not cached:
`HybridComputeRequired(address,bytes32,bytes)`. -/
structure Marker where
  account : Address
  requestId : Hash
  callParams : Bytes
deriving DecidableEq, Repr

namespace Marker

def selector : Bytes := [0xdb, 0xee, 0x06, 0x7f]

def encode (m : Marker) : Bytes :=
  selector ++ encodeValues [.word m.account.toWord, .word m.requestId, .bytes m.callParams]

def decode? (bs : Bytes) : Option Marker := do
  let values ← Abi.decode? [.word, .word, .bytes] (← dropSelector? selector bs)
  let [.word account, .word requestId, .bytes callParams] := values | none
  return ⟨← address? account, requestId, callParams⟩

def isClaimedBy (bs : Bytes) : Bool := bs.take 4 == selector

end Marker

/-- The revert of a second write for one request: `DuplicateEntry(bytes32)`. -/
structure DuplicateEntry where
  requestId : Hash

namespace DuplicateEntry

def selector : Bytes := [0xf0, 0x9c, 0xdd, 0x2a]

def encode (d : DuplicateEntry) : Bytes := selector ++ encodeValues [.word d.requestId]

def decode? (bs : Bytes) : Option DuplicateEntry := do
  let [.word requestId] ← Abi.decode? [.word] (← dropSelector? selector bs) | none
  return ⟨requestId⟩

end DuplicateEntry

/-- A call an account makes for its owner: `execute(address,uint256,bytes)`. -/
structure Execute where
  target : Address
  value : Word
  call : Bytes

namespace Execute

def selector : Bytes := [0xb6, 0x1d, 0x27, 0xf6]

def encode (e : Execute) : Bytes :=
  selector ++ encodeValues [.word e.target.toWord, .word e.value, .bytes e.call]

def decode? (bs : Bytes) : Option Execute := do
  let values ← Abi.decode? [.word, .word, .bytes] (← dropSelector? selector bs)
  let [.word target, .word value, .bytes call] := values | none
  return ⟨← address? target, value, call⟩

end Execute

/-- The helper's write of a response: `PutResponse(bytes32,bytes,bytes)`. -/
structure PutResponse where
  requestId : Hash
  payload : Bytes
  signature : Bytes

namespace PutResponse

def selector : Bytes := [0x98, 0x66, 0x1b, 0x28]

def encode (p : PutResponse) : Bytes :=
  selector ++ encodeValues [.word p.requestId, .bytes p.payload, .bytes p.signature]

def decode? (bs : Bytes) : Option PutResponse := do
  let values ← Abi.decode? [.word, .bytes, .bytes] (← dropSelector? selector bs)
  let [.word requestId, .bytes payload, .bytes signature] := values | none
  return ⟨requestId, payload, signature⟩

end PutResponse

/-- An account's call for an off-chain result: `hybridCall(address,bytes)`. -/
structure HybridCall where
  account : Address
  callParams : Bytes

namespace HybridCall

def selector : Bytes := [0xa6, 0x39, 0xc7, 0xa2]

def encode (c : HybridCall) : Bytes :=
  selector ++ encodeValues [.word c.account.toWord, .bytes c.callParams]

def decode? (bs : Bytes) : Option HybridCall := do
  let [.word account, .bytes callParams] ←
    Abi.decode? [.word, .bytes] (← dropSelector? selector bs) | none
  return ⟨← address? account, callParams⟩

end HybridCall

/-- The row that the helper keeps for an account, before it is checked. -/
structure RegistryRow where
  signer : Address
  url : String
deriving DecidableEq, Repr, Inhabited

namespace RegistryRow

/-- `RegisteredCallers(address)`, which answers `(address signer, string url, uint256 credits)`. -/
def selector : Bytes := [0x6c, 0x7f, 0x45, 0x7d]

def call (account : Address) : Bytes := selector ++ encodeValues [.word account.toWord]

def encode (row : RegistryRow) (credits : Word) : Bytes :=
  Abi.encode [.address row.signer, .text row.url, .word credits]

def decode? (bs : Bytes) : Option RegistryRow := do
  let [.word signer, .bytes url, .word _] ← Abi.decode? [.word, .bytes, .word] bs | none
  return ⟨← address? signer, ← text? url⟩

end RegistryRow

/-- `RegisterUrl(address,string)`. -/
def registerUrlCall (account : Address) (url : String) : Bytes :=
  [0xc2, 0x5f, 0xcd, 0xff] ++ Abi.encode [.address account, .text url]

/-- `GetResponse(bytes32)`. -/
def getResponseCall (requestId : Hash) : Bytes :=
  [0xbc, 0x16, 0x11, 0x05] ++ encodeValues [.word requestId]

/-- `getNonce(address,uint192)`, for key zero. -/
def getNonceCall (account : Address) : Bytes :=
  [0x35, 0x56, 0x7e, 0x1a] ++ encodeValues [.word account.toWord, .word 0]

def decodeWord? (bs : Bytes) : Option Word := do
  let [.word w] ← Abi.decode? [.word] bs | none
  return w

/-- An operation as the single argument of a call. -/
def Operation.abiEncode (op : Operation) : Bytes := Abi.encode [.tuple op.abiArguments]

/-- `simulateHandleOp`, with no call behind the operation's own. -/
def simulateCall (op : Operation) : Bytes :=
  [0xd6, 0x38, 0x3f, 0x94] ++ Abi.encode [.tuple op.abiArguments, .address 0, .bytes []]

/-- The revert that reports a finished simulation:
`ExecutionResult(uint256,uint256,uint48,uint48,bool,bytes)`. -/
structure ExecutionResult where
  preOpGas : Word
  paid : Word
  validAfter : Nat
  validUntil : Nat
  targetSuccess : Bool
  targetResult : Bytes

namespace ExecutionResult

def selector : Bytes := [0x8b, 0x7a, 0xc9, 0x80]

def decode? (bs : Bytes) : Option ExecutionResult := do
  let values ← Abi.decode? [.word, .word, .word, .word, .word, .bytes]
    (← dropSelector? selector bs)
  let [.word preOpGas, .word paid, .word validAfter, .word validUntil, .word success,
    .bytes result] := values | none
  return ⟨preOpGas, paid, ← uint? 48 validAfter, ← uint? 48 validUntil, ← bool? success, result⟩

end ExecutionResult

/-- The revert of an operation that was refused: `FailedOp(uint256,string)`. -/
structure FailedOp where
  index : Word
  reason : String

namespace FailedOp

def selector : Bytes := [0x22, 0x02, 0x66, 0xb6]

def decode? (bs : Bytes) : Option FailedOp := do
  let [.word index, .bytes reason] ←
    Abi.decode? [.word, .bytes] (← dropSelector? selector bs) | none
  return ⟨index, ← text? reason⟩

end FailedOp

end ComputeRelay
