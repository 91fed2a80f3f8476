import ComputeRelay.Failure

/-! Pairs: a cache write and the operation that it serves. -/

namespace ComputeRelay

structure Pair where
  requestId : Hash
  /-- The cache write, sent by the system account. -/
  write : Operation
  served : Operation
  estimate : GasEstimate
  /-- The code of the response that stands in for a missing one. -/
  fallback : Option ErrorCode
deriving DecidableEq, Repr

namespace Pair

/-- The pair of a write from the system account and an operation from any other. -/
def create (requestId : Hash) (write served : Operation) (estimate : GasEstimate)
    (systemAccount : Address) (fallback : Option ErrorCode) : Except OrderError Pair :=
  if write.sender ≠ systemAccount then
    .error (.invalidPair "injected operation is not from the system account")
  else if served.sender = systemAccount then
    .error (.invalidPair "original operation is from the system account")
  else .ok ⟨requestId, write, served, estimate, fallback⟩

theorem create_eq_ok_iff {requestId : Hash} {write served : Operation} {estimate : GasEstimate}
    {systemAccount : Address} {fallback : Option ErrorCode} {p : Pair} :
    create requestId write served estimate systemAccount fallback = .ok p ↔
      write.sender = systemAccount ∧ served.sender ≠ systemAccount ∧
        p = ⟨requestId, write, served, estimate, fallback⟩ := by
  unfold create
  by_cases hwrite : write.sender = systemAccount
  · by_cases hserved : served.sender = systemAccount
    · simp [hwrite, hserved]
    · simp [hwrite, hserved, eq_comm]
  · simp [hwrite]

/-- The two operations in the order in which they are bundled. -/
def operations (p : Pair) : List Operation := [p.write, p.served]

/-- The pair with its served operation signed anew. Nothing but the signature may differ. -/
def withSigned (p : Pair) (signed : Operation) : Except AttachError Pair :=
  let stored := p.served
  if signed.sender ≠ stored.sender ∨ signed.nonce ≠ stored.nonce then
    .error (.unknownOperation signed.sender signed.nonce)
  else if signed.gas ≠ p.estimate then .error (.mismatch "gas fields differ from the estimate")
  else if signed.callData ≠ stored.callData then .error (.mismatch "callData differs")
  else if signed.initCode ≠ stored.initCode ∨
      signed.paymasterAndData ≠ stored.paymasterAndData then
    .error (.mismatch "initCode or paymasterAndData differs")
  else if signed.maxFeePerGas ≠ stored.maxFeePerGas ∨
      signed.maxPriorityFeePerGas ≠ stored.maxPriorityFeePerGas then
    .error (.mismatch "fee fields differ")
  else if signed.signature = [] ∨ signed.signature = stored.signature then
    .error (.mismatch "signature was not renewed")
  else .ok { p with served := signed }

end Pair

end ComputeRelay
