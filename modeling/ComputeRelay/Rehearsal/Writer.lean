import ComputeRelay.Rehearsal.Schedule
import ComputeRelay.Rehearsal.World

/-! Rehearsing the preparation of cache writes step by step. -/

namespace ComputeRelay.Rehearsal

inductive WriterTask
  | drafting (draft : Draft) (stage : Drafting)
  | prepared (draft : Draft) (p : Prepared)
  | resyncing

inductive WriterStep
  | world (step : WorldStep)
  | populate (id : CallId) (draft : Draft)
  | finalize (id : CallId)
  | drop (id : CallId)
  | cancel (id : CallId)
  | release (requestIds : List Hash)
  | isPending (requestId : Hash)
  | advance (ms : Nat)
  | systemAccount
  | resync

inductive WriterValue
  | none
  | bool (b : Bool)
  | address (a : Address)

structure WriterEntry where
  value : WriterValue
  events : List (CallId × Except WriteError Prepared)
  held : List CallId
  calls : List String

structure WriterRehearsal where
  world : World
  writer : CacheWriter
  now : Nat := 0
  tasks : Table CallId WriterTask := []
  inFlight : Table CallId InFlight := []
  /-- What has happened in this step, the latest first. -/
  events : List (CallId × Except WriteError Prepared) := []

namespace WriterRehearsal

def create (config : Config) (signer : Signer) : WriterRehearsal where
  world := { systemAccount := config.systemAccount, helper := config.helper }
  writer := { config, signer }

/-- Notes where a step left a preparation. -/
def note (s : WriterRehearsal) (id : CallId) (draft : Draft) (step : CacheWriter × DraftResult) :
    WriterRehearsal :=
  let s := { s with writer := step.1 }
  match step.2 with
  | .waiting stage => { s with tasks := Table.insert s.tasks id (.drafting draft stage) }
  | .failed e =>
    { s with tasks := Table.erase s.tasks id, events := (id, .error e) :: s.events }
  | .prepared p =>
    { s with
      tasks := Table.insert s.tasks id (.prepared draft p)
      events := (id, .ok p) :: s.events }

def query? (s : WriterRehearsal) (draft : Draft) : Drafting → Option Query
  | .queued => none
  | .reading => some (.nonce s.writer.config.systemAccount)
  | .simulating write => some (.simulate [] write draft.block)

/-- One move of a task, if it can make one. -/
def move (id : CallId) (s : WriterRehearsal) : Option WriterRehearsal := do
  match ← Table.get? s.tasks id with
  | .prepared _ _ => none
  | .resyncing =>
    guard (s.writer.lane.isHeldBy id)
    return { s with
      writer := { s.writer with lane := s.writer.lane.forget.leave id }
      tasks := Table.erase s.tasks id }
  | .drafting draft stage =>
    match s.query? draft stage, Table.get? s.inFlight id with
    | none, _ =>
      guard (s.writer.lane.isHeldBy id)
      return s.note id draft (s.writer.takeTurn id draft)
    | some query, none =>
      let (world, f) := s.world.ask s.now query
      return { s with world, inFlight := Table.insert s.inFlight id f }
    | some _, some f =>
      guard (f.readyAt.any (· ≤ s.now))
      let s' := { s with inFlight := Table.erase s.inFlight id }
      match stage, s.world.answer f with
      | .reading, .nonce reply => return s'.note id draft (s.writer.nonceRead id draft reply)
      | .simulating write, .simulation reply =>
        return s'.note id draft (s.writer.simulated id draft write reply)
      | _, _ => none

def settle (s : WriterRehearsal) : WriterRehearsal :=
  let ids := Table.keys s.tasks
  settleAll move (8 * ids.length + 8) ids s

/-- Lets time pass up to `target`, stopping wherever an answer becomes ready. -/
def passTime (target : Nat) : (fuel : Nat) → WriterRehearsal → WriterRehearsal
  | 0, s => { s with now := target }.settle
  | fuel + 1, s =>
    let s := s.settle
    match (s.inFlight.filterMap fun e => e.2.readyAt.filter (s.now < ·)).min? with
    | some t =>
      if t ≤ target then passTime target fuel { s with now := t } else { s with now := target }
    | none => { s with now := target }

def apply (s : WriterRehearsal) : WriterStep → WriterRehearsal × WriterValue
  | .world step => ({ s with world := s.world.apply step }, .none)
  | .populate id draft => (s.note id draft (s.writer.start id draft), .none)
  | .finalize id =>
    match Table.get? s.tasks id with
    | some (.prepared _ p) =>
      ({ s with writer := s.writer.keep id p, tasks := Table.erase s.tasks id }, .none)
    | _ => (s, .none)
  | .drop id =>
    match Table.get? s.tasks id with
    | some (.prepared draft _) =>
      ({ s with
        writer := s.writer.abandon id draft.requestId
        tasks := Table.erase s.tasks id }, .none)
    | _ => (s, .none)
  | .cancel id =>
    match Table.get? s.tasks id with
    | some (.drafting draft _) =>
      ({ s with
        writer := s.writer.abandon id draft.requestId
        tasks := Table.erase s.tasks id
        inFlight := Table.erase s.inFlight id }, .none)
    | _ => (s, .none)
  | .release requestIds => ({ s with writer := s.writer.release requestIds }, .none)
  | .isPending requestId => (s, .bool (s.writer.isReserved requestId))
  | .advance ms => (s.passTime (s.now + ms) (8 * s.tasks.length + 8), .none)
  | .systemAccount => (s, .address s.writer.config.systemAccount)
  | .resync =>
    let id := "(resync " ++ toString s.tasks.length ++ ")"
    ({ s with
      writer := { s.writer with lane := s.writer.lane.join id }
      tasks := Table.insert s.tasks id .resyncing }, .none)

def step (s : WriterRehearsal) (w : WriterStep) : WriterRehearsal × WriterEntry :=
  let (s, value) := { s with events := [] }.apply w
  let s := s.settle
  let (world, calls) := s.world.takeLog
  let held := s.tasks.filterMap fun (id, task) =>
    match task with
    | .prepared _ _ => some id
    | _ => none
  ({ s with world }, ⟨value, s.events.reverse, held.mergeSort fun a b => decide (a ≤ b), calls⟩)

def run (config : Config) (signer : Signer) (steps : List WriterStep) : List WriterEntry :=
  (steps.foldl
    (fun (s, entries) w =>
      let (s, entry) := WriterRehearsal.step s w
      (s, entries ++ [entry]))
    (create config signer, [])).2

end WriterRehearsal

end ComputeRelay.Rehearsal
