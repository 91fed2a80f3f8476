import ComputeRelay.Contract
import ComputeRelay.Failure
import ComputeRelay.Simulation

/-! What a cache write costs the operation it serves. -/

namespace ComputeRelay

structure WriteCost where
  verificationGas : Word
  callGas : Word
  preVerificationGas : Word
deriving DecidableEq, Repr

namespace WriteCost

def ofSimulation (write : Operation) (outcome : Simulation) : WriteCost :=
  ⟨outcome.verificationGas, outcome.callGas, write.preVerificationGas⟩

def total (cost : WriteCost) : Except RepriceError Word :=
  match (Word.checkedAdd cost.verificationGas cost.callGas).bind
      (Word.checkedAdd · cost.preVerificationGas) with
  | some sum => .ok sum
  | none => .error .overflow

def toJson (cost : WriteCost) : Json :=
  .object [("verificationGas", .ofWord cost.verificationGas), ("callGas", .ofWord cost.callGas),
    ("preVerificationGas", .ofWord cost.preVerificationGas)]

end WriteCost

/-- The new gas fields of an operation, and the two amounts added to it. -/
structure FeeAdjustment where
  writeCost : Word
  surcharge : Word
  estimate : GasEstimate
deriving DecidableEq, Repr

def FeeAdjustment.toJson (f : FeeAdjustment) : Json :=
  .object [("injectedCost", .ofWord f.writeCost), ("surcharge", .ofWord f.surcharge),
    ("estimate", f.estimate.toJson)]

/-- The gas fields of an operation that pays for its cache write, from its simulation behind the
write. The pre-verification gas grows by the cost of the write and the flat fee; the two limits
only grow. -/
def reprice (flatFee : Word) (requestId : Hash) (served : Operation) (cost : WriteCost)
    (resimulated : Simulation) : Except RepriceError FeeAdjustment := do
  if let some reason := resimulated.validationError then throw (.simulationFailed reason)
  if !resimulated.success && Marker.isClaimedBy resimulated.revertData then
    throw (.stillPending requestId)
  let writeCost ← cost.total
  match (Word.checkedAdd served.preVerificationGas writeCost).bind
      (Word.checkedAdd · flatFee) with
  | none => throw .overflow
  | some preVerificationGas =>
    return {
      writeCost
      surcharge := flatFee
      estimate := {
        preVerificationGas
        verificationGasLimit := Word.larger served.verificationGasLimit
          resimulated.verificationGas
        callGasLimit := Word.larger served.callGasLimit resimulated.callGas } }

end ComputeRelay
