import ComputeRelay.Bundle
import ComputeRelay.CacheWriter
import ComputeRelay.Detection
import ComputeRelay.Fee
import ComputeRelay.Registry
import ComputeRelay.Table
import ComputeRelay.Verification

/-! The state of a relay: the calls in flight, each at the point where it waits, and the working
sets that they share. -/

namespace ComputeRelay

/-- A finished pair that is not submitted yet. -/
structure PendingPair where
  pair : Pair
  createdAt : Nat
deriving DecidableEq, Repr

/-- A request that is being worked on. -/
structure Candidate where
  op : Operation
  request : ComputeRequest
  block : BlockContext
  deadline : Nat
  lifecycle : Lifecycle

/-- The response that a cache write stores, and the code when it stands in for a missing one. -/
structure Answer where
  response : ComputeResponse
  fallback : Option ErrorCode

/-- Where a call waits, and what it goes on with. -/
inductive Stage
  | readingBlock (op : Operation) (deadline : Nat)
  | simulating (op : Operation) (block : BlockContext) (deadline : Nat)
  /-- In line for the lane, to drop pairs that had expired at `since`, before the request starts. -/
  | clearing (since : Nat) (op : Operation) (request : ComputeRequest) (block : BlockContext)
    (deadline : Nat)
  | resolving (c : Candidate)
  | asking (c : Candidate) (registration : Registration)
  | drafting (c : Candidate) (answer : Answer) (stage : Drafting)
  | resimulating (c : Candidate) (answer : Answer) (prepared : Prepared)
  /-- In line for the lane, to drop pairs that had expired at `since`. -/
  | expiring (since : Nat)
  /-- In line for the lane, to drop the pairs of a bundle that was not included. -/
  | dropping (requestIds : List Hash)
  /-- In line for the lane, to have its nonce read anew. -/
  | resyncing (released : List Hash)

/-- What a call asks of the ledger or of the off-chain service. -/
inductive Query
  | latestBlock
  | registryRow (account : Address) (block : BlockContext)
  | nonce (account : Address)
  | simulate (behind : List Operation) (op : Operation) (block : BlockContext)
  | respond (registration : Registration) (request : ComputeRequest)

inductive Reply
  | block (r : Except LedgerError BlockContext)
  | row (r : Except LedgerError RegistryRow)
  | nonce (r : Except LedgerError Word)
  | simulation (r : Except LedgerError Simulation)
  | response (r : Except ServiceError ComputeResponse)

inductive Result
  | passthrough (op : Operation)
  | paired (pair : Pair) (fee : FeeAdjustment) (lifecycle : Lifecycle)
  | rejected (e : Rejection)
  | released (requestIds : List Hash)

structure Relay where
  writer : CacheWriter
  /-- Milliseconds since the start. -/
  now : Nat := 0
  /-- The states of the requests in flight and of those whose pairs are pending. -/
  active : Table Hash RequestState := []
  pending : Table Hash PendingPair := []
  calls : Table CallId Stage := []

namespace Candidate

def requestId (c : Candidate) : Hash := c.request.requestId

def draft (c : Candidate) (answer : Answer) : Draft :=
  ⟨c.op, c.requestId, answer.response, c.block⟩

end Candidate

namespace Stage

/-- What a call waits for from outside; `none` when it stands in line for the lane. -/
def query? (systemAccount : Address) : Stage → Option Query
  | .readingBlock _ _ => some .latestBlock
  | .simulating op block _ => some (.simulate [] op block)
  | .resolving c => some (.registryRow c.request.account c.block)
  | .asking c registration => some (.respond registration c.request)
  | .drafting _ _ .reading => some (.nonce systemAccount)
  | .drafting c _ (.simulating write) => some (.simulate [] write c.block)
  | .resimulating c _ prepared => some (.simulate [prepared.write] c.op c.block)
  | _ => none

def deadline? : Stage → Option Nat
  | .readingBlock _ deadline => some deadline
  | .simulating _ _ deadline => some deadline
  | .resolving c => some c.deadline
  | .asking c _ => some c.deadline
  | .drafting c _ _ => some c.deadline
  | .resimulating c _ _ => some c.deadline
  | _ => none

end Stage

namespace Relay

/-- A relay for a valid configuration, with nothing in flight. -/
def create (config : Config) (signer : Signer) : Except ConfigError Relay := do
  config.validate
  return { writer := { config, signer } }

def config (r : Relay) : Config := r.writer.config

def systemAccount (r : Relay) : Address := r.config.systemAccount

def advance (r : Relay) (ms : Nat) : Relay := { r with now := r.now + ms }

def pendingPairs (r : Relay) : List Pair :=
  (r.pending.map fun e => e.2.pair).mergeSort fun p q =>
    decide (p.write.nonce.toNat ≤ q.write.nonce.toNat)

def activeRequests (r : Relay) : List (Hash × RequestState) :=
  r.active.mergeSort fun a b => decide (a.1.toNat ≤ b.1.toNat)

def modifyLane (r : Relay) (f : Lane → Lane) : Relay :=
  { r with writer := { r.writer with lane := f r.writer.lane } }

def record (r : Relay) (requestId : Hash) (state : RequestState) : Relay :=
  { r with active := Table.insert r.active requestId state }

def forget (r : Relay) (requestIds : List Hash) : Relay :=
  { r with
    writer := r.writer.release requestIds
    pending := r.pending.filter fun e => !requestIds.contains e.1
    active := r.active.filter fun e => !requestIds.contains e.1 }

/-- The pairs of these requests were submitted. -/
def markSubmitted (r : Relay) (requestIds : List Hash) : Relay := r.forget requestIds

/-- The pending pairs in the order in which they are gone through: those of the requests in `order`
come first. -/
def arranged (r : Relay) (order : List Hash) : Table Hash PendingPair :=
  (order.filterMap fun key => (Table.get? r.pending key).map fun entry => (key, entry)) ++ r.pending

theorem mem_arranged {r : Relay} {order : List Hash} {e : Hash × PendingPair} :
    e ∈ r.arranged order ↔ e ∈ r.pending := by
  rw [arranged, List.mem_append, or_iff_right_iff_imp, List.mem_filterMap]
  rintro ⟨key, -, hget⟩
  obtain ⟨entry, hentry, rfl⟩ := Option.map_eq_some_iff.mp hget
  exact Table.mem_of_get? hentry

/-- Binds an operation, signed anew by its account, to the first pair of its sender and nonce. -/
def attach (r : Relay) (signed : Operation) (order : List Hash) : Relay × Except Rejection Pair :=
  match (r.arranged order).find? fun e =>
      e.2.pair.served.sender == signed.sender && e.2.pair.served.nonce == signed.nonce with
  | none => (r, .error (.attach (.unknownOperation signed.sender signed.nonce)))
  | some (key, entry) =>
    match entry.pair.withSigned signed with
    | .error e => (r, .error (.attach e))
    | .ok pair =>
      ({ r with pending := Table.insert r.pending key { entry with pair } }, .ok pair)

def expired (r : Relay) (since : Nat) (entry : PendingPair) : Bool :=
  decide (r.config.pendingTtlMs.toNat ≤ since - entry.createdAt)

/-- Drops the pairs whose nonces reach the lowest nonce of a selected pair, and rewinds the lane to
that nonce. The caller holds the lane. -/
def giveBack (r : Relay) (selected : Hash → PendingPair → Bool) : Relay × List Hash :=
  match (r.pending.filterMap fun e =>
      if selected e.1 e.2 then some e.2.pair.write.nonce.toNat else none).min? with
  | none => (r, [])
  | some cutoff =>
    let dropped := (r.pending.filter fun e => decide (cutoff ≤ e.2.pair.write.nonce.toNat)).map
      (·.1)
    ((r.modifyLane (·.rewind (BitVec.ofNat 256 cutoff))).forget dropped, dropped)

end Relay

end ComputeRelay
