import ComputeRelay.Payload

/-! Cache writes: an account's call that puts a response into the helper's cache. -/

namespace ComputeRelay

namespace CacheWrite

/-- `execute(helper, 0, PutResponse(requestId, payload, signature))`. -/
def encode (helper : Address) (requestId : Hash) (payload signature : Bytes) : Bytes :=
  (Execute.mk helper 0 (PutResponse.mk requestId payload signature).encode).encode

/-- The request and payload that a call to the helper writes, if it is a cache write. -/
def decode? (callData : Bytes) (helper : Address) : Option (Hash × Bytes) := do
  let execute ← Execute.decode? callData
  guard (execute.target = helper ∧ execute.value = 0)
  let put ← PutResponse.decode? execute.call
  return (put.requestId, put.payload)

end CacheWrite

/-- Whether an operation is a cache write that the system account makes. -/
def Operation.isCacheWrite (op : Operation) (systemAccount helper : Address) : Bool :=
  op.sender == systemAccount && (CacheWrite.decode? op.callData helper).isSome

end ComputeRelay
