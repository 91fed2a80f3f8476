import ComputeRelay.NonceQueue
import ComputeRelay.Rehearsal.Schedule
import ComputeRelay.Rehearsal.World

/-! Rehearsing the nonce lanes step by step. -/

namespace ComputeRelay.Rehearsal

inductive QueueStep
  | world (step : WorldStep)
  | start (id : CallId) (account : Address) (job : LaneJob)
  | cancel (id : CallId)
  | commit (id : CallId)
  | drop (id : CallId)

/-- What one step of a rehearsal shows. -/
structure QueueEntry where
  events : List (CallId × LaneEvent)
  held : List CallId
  calls : List String

structure QueueRehearsal where
  world : World := { systemAccount := 0, helper := 0 }
  queue : NonceQueue := {}
  inFlight : Table CallId InFlight := []
  /-- What has happened in this step, the latest first. -/
  events : List (CallId × LaneEvent) := []

namespace QueueRehearsal

def note (s : QueueRehearsal) (id : CallId) (step : NonceQueue × Option LaneEvent) :
    QueueRehearsal :=
  { s with queue := step.1, events := (step.2.map (id, ·)).toList ++ s.events }

/-- One move of a task, if it can make one. No time passes while a queue is rehearsed. -/
def move (id : CallId) (s : QueueRehearsal) : Option QueueRehearsal := do
  let task ← Table.get? s.queue.tasks id
  match task.stage with
  | .ticket _ => none
  | .queued _ =>
    guard ((s.queue.lane task.account).isHeldBy id)
    return s.note id (s.queue.proceed id)
  | .reading =>
    match Table.get? s.inFlight id with
    | none =>
      let (world, f) := s.world.ask 0 (.nonce task.account)
      return { s with world, inFlight := Table.insert s.inFlight id f }
    | some f =>
      guard (f.readyAt == some 0)
      let .nonce reply := s.world.answer f | none
      return { s with inFlight := Table.erase s.inFlight id }.note id (s.queue.nonceRead id reply)

def apply (s : QueueRehearsal) : QueueStep → QueueRehearsal
  | .world step => { s with world := s.world.apply step }
  | .start id account job => { s with queue := s.queue.start id account job }
  | .cancel id =>
    { s with queue := s.queue.cancel id, inFlight := Table.erase s.inFlight id }
  | .commit id => { s with queue := s.queue.commit id }
  | .drop id => { s with queue := s.queue.drop id }

def step (s : QueueRehearsal) (q : QueueStep) : QueueRehearsal × QueueEntry :=
  let s := { s with events := [] }.apply q
  let ids := Table.keys s.queue.tasks
  let s := settleAll move (8 * ids.length + 8) ids s
  let (world, calls) := s.world.takeLog
  let held := s.queue.held.mergeSort fun a b => decide (a ≤ b)
  ({ s with world }, ⟨s.events.reverse, held, calls⟩)

def run (steps : List QueueStep) : List QueueEntry :=
  (steps.foldl
    (fun (s, entries) q =>
      let (s, entry) := QueueRehearsal.step s q
      (s, entries ++ [entry]))
    (({} : QueueRehearsal), [])).2

end QueueRehearsal

end ComputeRelay.Rehearsal
