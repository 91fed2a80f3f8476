import ComputeRelay.Json.Scalar

/-! The states a request passes through, and the record of them. -/

namespace ComputeRelay

inductive FailureReason
  | detection
  | notRegistered
  | timeout
  | unreachable
  | malformed
  | signerMismatch
  | signatureInvalid
  | parameterMismatch
  | simulationFailed
  | duplicateRequest
  | reestimation
  | internal
deriving DecidableEq, Repr

namespace FailureReason

def all : List FailureReason :=
  [.detection, .notRegistered, .timeout, .unreachable, .malformed, .signerMismatch,
    .signatureInvalid, .parameterMismatch, .simulationFailed, .duplicateRequest, .reestimation,
    .internal]

def name : FailureReason → String
  | .detection => "Detection"
  | .notRegistered => "NotRegistered"
  | .timeout => "Timeout"
  | .unreachable => "Unreachable"
  | .malformed => "Malformed"
  | .signerMismatch => "SignerMismatch"
  | .signatureInvalid => "SignatureInvalid"
  | .parameterMismatch => "ParameterMismatch"
  | .simulationFailed => "SimulationFailed"
  | .duplicateRequest => "DuplicateRequest"
  | .reestimation => "Reestimation"
  | .internal => "Internal"

def ofName? (s : String) : Option FailureReason := all.find? (·.name == s)

end FailureReason

inductive RequestState
  | detected
  | resolving
  | requesting
  | verifying
  | populating
  | reestimating
  | completed
  | failed (reason : FailureReason)
deriving DecidableEq, Repr

structure TransitionError where
  source : RequestState
  target : RequestState
deriving DecidableEq, Repr

namespace RequestState

/-- The states that a successful request passes through, in order. -/
def course : List RequestState :=
  [.detected, .resolving, .requesting, .verifying, .populating, .reestimating, .completed]

def isTerminal : RequestState → Bool
  | .completed => true
  | .failed _ => true
  | _ => false

/-- The name of a state, without the reason of a failure. -/
def name : RequestState → String
  | .detected => "Detected"
  | .resolving => "Resolving"
  | .requesting => "Requesting"
  | .verifying => "Verifying"
  | .populating => "Populating"
  | .reestimating => "Reestimating"
  | .completed => "Completed"
  | .failed _ => "Failed"

def describe : RequestState → String
  | .failed reason => "Failed \x7b reason: " ++ reason.name ++ " \x7d"
  | s => s.name

def toJson : RequestState → Json
  | .failed reason => .object [("Failed", .object [("reason", .string reason.name)])]
  | s => .string s.name

/-- The successor of a state on the course of a successful request. -/
def next? : RequestState → Option RequestState
  | .detected => some .resolving
  | .resolving => some .requesting
  | .requesting => some .verifying
  | .verifying => some .populating
  | .populating => some .reestimating
  | .reestimating => some .completed
  | _ => none

/-- A request moves one state along its course, or fails from any state that is not its last. -/
def transition (current target : RequestState) : Except TransitionError RequestState :=
  match target with
  | .failed reason =>
    if current.isTerminal then .error ⟨current, target⟩ else .ok (.failed reason)
  | _ => if current.next? = some target then .ok target else .error ⟨current, target⟩

end RequestState

def TransitionError.message (e : TransitionError) : String :=
  "invalid transition from " ++ e.source.describe ++ " to " ++ e.target.describe

/-- A request's present state, and the states before it with the latest one first. -/
structure Lifecycle where
  requestId : Hash
  past : List RequestState := []
  state : RequestState := .detected
deriving DecidableEq, Repr

namespace Lifecycle

def start (requestId : Hash) : Lifecycle := { requestId }

/-- All states recorded, the first one first. -/
def history (l : Lifecycle) : List RequestState := l.past.reverse ++ [l.state]

def isTerminal (l : Lifecycle) : Bool := l.state.isTerminal

def advance (l : Lifecycle) (target : RequestState) : Except TransitionError Lifecycle := do
  let state ← l.state.transition target
  return { l with past := l.state :: l.past, state }

def fail (l : Lifecycle) (reason : FailureReason) : Except TransitionError Lifecycle :=
  l.advance (.failed reason)

end Lifecycle

end ComputeRelay
