import ComputeRelay.Failure
import ComputeRelay.Lane
import ComputeRelay.Table

/-! Nonce lanes of several accounts, and the tasks that take nonces from them. -/

namespace ComputeRelay

inductive LaneJob
  | acquire
  | resync
  | rewind (target : Option Word)
deriving DecidableEq, Repr

inductive LaneStage
  /-- In line for the lane. -/
  | queued (job : LaneJob)
  /-- Holding the lane while the nonce is read from the ledger. -/
  | reading
  /-- Holding the lane and its next nonce, until the ticket is committed or dropped. -/
  | ticket (nonce : Word)
deriving DecidableEq, Repr

structure LaneTask where
  account : Address
  stage : LaneStage
deriving DecidableEq, Repr

/-- How a task ended, or that it holds a ticket now. -/
inductive LaneEvent
  | granted (account : Address) (nonce : Word)
  | failed (e : LedgerError)
  | resynced
  | rewound (target : Option Word)
deriving DecidableEq, Repr

structure NonceQueue where
  lanes : Table Address Lane := []
  tasks : Table CallId LaneTask := []
deriving Inhabited

namespace NonceQueue

def lane (q : NonceQueue) (account : Address) : Lane :=
  (Table.get? q.lanes account).getD {}

def modifyLane (q : NonceQueue) (account : Address) (f : Lane → Lane) : NonceQueue :=
  { q with lanes := Table.insert q.lanes account (f (q.lane account)) }

def setStage (q : NonceQueue) (id : CallId) (account : Address) (stage : LaneStage) :
    NonceQueue :=
  { q with tasks := Table.insert q.tasks id ⟨account, stage⟩ }

/-- Ends a task: it leaves its lane, which the next one in line then holds. -/
def finish (q : NonceQueue) (id : CallId) (account : Address) : NonceQueue :=
  { q.modifyLane account (·.leave id) with tasks := Table.erase q.tasks id }

def start (q : NonceQueue) (id : CallId) (account : Address) (job : LaneJob) : NonceQueue :=
  (q.modifyLane account (·.join id)).setStage id account (.queued job)

/-- What a task that holds its lane does. -/
def proceed (q : NonceQueue) (id : CallId) : NonceQueue × Option LaneEvent :=
  match Table.get? q.tasks id with
  | some ⟨account, .queued job⟩ =>
    if (q.lane account).isHeldBy id then
      match job with
      | .resync => ((q.modifyLane account Lane.forget).finish id account, some .resynced)
      | .rewind none => (q.finish id account, some (.rewound none))
      | .rewind (some target) =>
        ((q.modifyLane account (·.rewind target)).finish id account, some (.rewound (some target)))
      | .acquire =>
        match (q.lane account).next with
        | some nonce => (q.setStage id account (.ticket nonce), some (.granted account nonce))
        | none => (q.setStage id account .reading, none)
    else (q, none)
  | _ => (q, none)

def reading? (q : NonceQueue) (id : CallId) : Option Address :=
  match Table.get? q.tasks id with
  | some ⟨account, .reading⟩ => some account
  | _ => none

def nonceRead (q : NonceQueue) (id : CallId) (answer : Except LedgerError Word) :
    NonceQueue × Option LaneEvent :=
  match q.reading? id with
  | none => (q, none)
  | some account =>
    match answer with
    | .error e => (q.finish id account, some (.failed e))
    | .ok nonce =>
      ((q.modifyLane account (·.learn nonce)).setStage id account (.ticket nonce),
        some (.granted account nonce))

def commit (q : NonceQueue) (id : CallId) : NonceQueue :=
  match Table.get? q.tasks id with
  | some ⟨account, .ticket nonce⟩ => (q.modifyLane account (·.commit nonce)).finish id account
  | _ => q

def drop (q : NonceQueue) (id : CallId) : NonceQueue :=
  match Table.get? q.tasks id with
  | some ⟨account, .ticket _⟩ => q.finish id account
  | _ => q

/-- Abandons a task that holds no ticket yet. -/
def cancel (q : NonceQueue) (id : CallId) : NonceQueue :=
  match Table.get? q.tasks id with
  | some ⟨_, .ticket _⟩ => q
  | some ⟨account, _⟩ => q.finish id account
  | none => q

def held (q : NonceQueue) : List CallId :=
  q.tasks.filterMap fun (id, task) =>
    match task.stage with
    | .ticket _ => some id
    | _ => none

end NonceQueue

def describeTicket (account : Address) (nonce : Word) : String :=
  "NonceTicket \x7b account: " ++ account.toHex ++ ", nonce: " ++ nonce.toDecimal ++ " \x7d"

end ComputeRelay
