import ComputeRelay.CacheWrite
import ComputeRelay.Config
import ComputeRelay.Lane
import ComputeRelay.Signer
import ComputeRelay.Simulation

/-! Preparing cache writes. A request id is reserved, the system account's next nonce is taken, and
the signed write is simulated; the lane of nonces stays held until the write is kept or given up. -/

namespace ComputeRelay

/-- What a cache write is prepared for. -/
structure Draft where
  served : Operation
  requestId : Hash
  response : ComputeResponse
  block : BlockContext

/-- A cache write that simulated without fault. -/
structure Prepared where
  write : Operation
  outcome : Simulation
deriving DecidableEq, Repr

/-- What the preparation of a write waits for. -/
inductive Drafting
  /-- Its turn in the lane. -/
  | queued
  /-- The nonce of the system account, with the lane held. -/
  | reading
  /-- The simulation of the write, with the lane held. -/
  | simulating (write : Operation)

inductive DraftResult
  | waiting (stage : Drafting)
  | failed (e : WriteError)
  | prepared (p : Prepared)

structure CacheWriter where
  config : Config
  signer : Signer
  lane : Lane := {}
  /-- The requests with a write in preparation or in a pending pair. -/
  reserved : List Hash := []

/-- What the simulation of a write says about it. -/
def checkWrite (requestId : Hash) (outcome : Simulation) : Except WriteError Unit :=
  match outcome.validationError with
  | some reason => .error (.simulationFailed reason)
  | none =>
    if outcome.success then .ok ()
    else
      match DuplicateEntry.decode? outcome.revertData with
      | some d => .error (.duplicateRequest d.requestId)
      | none =>
        .error (.simulationFailed ("cache write for " ++ requestId.toHex ++ " reverted with " ++
          Bytes.toHex outcome.revertData))

namespace CacheWriter

/-- The signed write of a response. Its fees are those of the operation that it serves. -/
def build (w : CacheWriter) (served : Operation) (requestId : Hash)
    (response : ComputeResponse) (nonce : Word) : Except WriteError Operation :=
  let gas := w.config.writeGas
  let op : Operation := {
    sender := w.config.systemAccount
    nonce
    callData := CacheWrite.encode w.config.helper requestId response.payload response.signature
    callGasLimit := Word.ofUInt64 gas.callGasLimit
    verificationGasLimit := Word.ofUInt64 gas.verificationGasLimit
    preVerificationGas := Word.ofUInt64 gas.preVerificationGas
    maxFeePerGas := served.maxFeePerGas
    maxPriorityFeePerGas := served.maxPriorityFeePerGas }
  match w.signer.sign (messageHash (op.hash w.config.entryPoint w.config.chainId)) with
  | .ok signature => .ok { op with signature }
  | .error e => .error (.signer e)

def isReserved (w : CacheWriter) (requestId : Hash) : Bool := w.reserved.contains requestId

def release (w : CacheWriter) (requestIds : List Hash) : CacheWriter :=
  { w with reserved := w.reserved.filter fun id => !requestIds.contains id }

/-- Gives a preparation up: its reservation and its place in the lane are free again. -/
def abandon (w : CacheWriter) (id : CallId) (requestId : Hash) : CacheWriter :=
  { w.release [requestId] with lane := w.lane.leave id }

/-- Keeps a prepared write: its nonce is used up, its request stays reserved. -/
def keep (w : CacheWriter) (id : CallId) (p : Prepared) : CacheWriter :=
  { w with lane := (w.lane.commit p.write.nonce).leave id }

/-- Goes on with a nonce. -/
def withNonce (w : CacheWriter) (id : CallId) (d : Draft) (nonce : Word) :
    CacheWriter × DraftResult :=
  match w.build d.served d.requestId d.response nonce with
  | .error e => (w.abandon id d.requestId, .failed e)
  | .ok write => (w, .waiting (.simulating write))

/-- Goes on as far as the call's place in the lane allows. -/
def takeTurn (w : CacheWriter) (id : CallId) (d : Draft) : CacheWriter × DraftResult :=
  match w.lane.standing id with
  | .waiting => (w, .waiting .queued)
  | .reading => (w, .waiting .reading)
  | .granted nonce => w.withNonce id d nonce

/-- Reserves the request and enters the lane. -/
def start (w : CacheWriter) (id : CallId) (d : Draft) : CacheWriter × DraftResult :=
  if w.isReserved d.requestId then (w, .failed (.duplicateRequest d.requestId))
  else
    takeTurn { w with reserved := w.reserved ++ [d.requestId], lane := w.lane.join id } id d

def nonceRead (w : CacheWriter) (id : CallId) (d : Draft) (answer : Except LedgerError Word) :
    CacheWriter × DraftResult :=
  match answer with
  | .error e => (w.abandon id d.requestId, .failed (.ledger e))
  | .ok nonce => withNonce { w with lane := w.lane.learn nonce } id d nonce

def simulated (w : CacheWriter) (id : CallId) (d : Draft) (write : Operation)
    (answer : Except LedgerError Simulation) : CacheWriter × DraftResult :=
  match answer with
  | .error e => (w.abandon id d.requestId, .failed (.ledger e))
  | .ok outcome =>
    match checkWrite d.requestId outcome with
    | .error e => (w.abandon id d.requestId, .failed e)
    | .ok () => (w, .prepared ⟨write, outcome⟩)

end CacheWriter

end ComputeRelay
