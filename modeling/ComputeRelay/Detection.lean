import ComputeRelay.Contract
import ComputeRelay.Failure
import ComputeRelay.Simulation

/-! Finding the off-chain request that a simulated operation makes. -/

namespace ComputeRelay

/-- The request named by the marker that a simulation ended with. A simulation that succeeds, or
whose revert does not start as a marker, needs no off-chain call. -/
def detect (op : Operation) (outcome : Simulation) :
    Except MarkerError (Option ComputeRequest) :=
  if outcome.success || !Marker.isClaimedBy outcome.revertData then .ok none
  else
    match Marker.decode? outcome.revertData with
    | none => .error (.undecodable "not the canonical encoding of a marker")
    | some m =>
      let derived := deriveRequestId m.account op.sender op.nonce m.callParams
      if m.account = 0 then .error .zeroAccount
      else if m.callParams.length < 4 then .error .missingSelector
      else if derived ≠ m.requestId then .error (.requestIdMismatch m.requestId derived)
      else .ok (some ⟨m.account, m.requestId, m.callParams, outcome.block.timestamp⟩)

end ComputeRelay
