import ComputeRelay.Relay.State

/-! How a call goes on: it starts, its turn in the lane comes, its query is answered, its time is
up, or its caller abandons it. A step takes it to the next point where it waits, or to its end. -/

namespace ComputeRelay

/-- Where a step leaves a call. -/
inductive Progress
  | waiting (stage : Stage)
  | finished (result : Result)

namespace Relay

def rejected (e : Rejection) : Progress := .finished (.rejected e)

/-- Ends a request whose row is in the working set. -/
def reject (r : Relay) (c : Candidate) (e : Rejection) : Relay × Progress :=
  ({ r with active := Table.erase r.active c.requestId }, rejected e)

/-- Ends a request whose write is in preparation or prepared: the write is given up. -/
def giveUp (r : Relay) (id : CallId) (c : Candidate) (e : Rejection) : Relay × Progress :=
  { r with writer := r.writer.abandon id c.requestId }.reject c e

/-- Moves a request to its next state, and goes on with it. -/
def enter (r : Relay) (c : Candidate) (state : RequestState)
    (next : Relay → Candidate → Relay × Progress) : Relay × Progress :=
  match c.lifecycle.advance state with
  | .error e => r.reject c (.lifecycle e)
  | .ok lifecycle =>
    next (r.record c.requestId lifecycle.state) { c with lifecycle }

/-- Goes on as the preparation of a cache write does. -/
def afterDrafting (r : Relay) (id : CallId) (c : Candidate) (answer : Answer)
    (step : CacheWriter × DraftResult) : Relay × Progress :=
  let r := { r with writer := step.1 }
  match step.2 with
  | .waiting stage => (r, .waiting (.drafting c answer stage))
  | .failed e => r.reject c (.write e)
  | .prepared prepared =>
    if answer.fallback.isSome then (r, .waiting (.resimulating c answer prepared))
    else
      match c.lifecycle.advance .reestimating with
      | .error e => r.giveUp id c (.lifecycle e)
      | .ok lifecycle =>
        (r.record c.requestId lifecycle.state,
          .waiting (.resimulating { c with lifecycle } answer prepared))

def startDrafting (r : Relay) (id : CallId) (c : Candidate) (answer : Answer) :
    Relay × Progress :=
  r.afterDrafting id c answer (r.writer.start id (c.draft answer))

/-- The response that the relay signs itself when the service gave none. -/
def standInResponse (r : Relay) (request : ComputeRequest) (code : ErrorCode) :
    Except Rejection ComputeResponse :=
  match r.writer.signer.respond request.requestId code [] with
  | .error e => .error (.signer e)
  | .ok response =>
    match response.verify request r.writer.signer.address with
    | .error e => .error (.response e)
    | .ok _ => .ok response

/-- The service answered, or failed to. -/
def afterResponse (r : Relay) (id : CallId) (c : Candidate) (registration : Registration)
    (reply : Except ServiceError ComputeResponse) : Relay × Progress :=
  match reply with
  | .ok response =>
    r.enter c .verifying fun r c =>
      match response.verify c.request registration.signer with
      | .error e => r.reject c (.response e)
      | .ok _ => r.enter c .populating fun r c => r.startDrafting id c ⟨response, none⟩
  | .error e =>
    r.enter c (.failed e.reason) fun r c =>
      match r.standInResponse c.request e.code with
      | .error e => r.reject c e
      | .ok response =>
        r.startDrafting id { c with deadline := r.now + r.config.fallbackGraceMs.toNat }
          ⟨response, some e.code⟩

/-- The served operation was simulated behind its cache write. -/
def afterResimulation (r : Relay) (id : CallId) (c : Candidate) (answer : Answer)
    (prepared : Prepared) (reply : Except LedgerError Simulation) : Relay × Progress :=
  match reply with
  | .error e => r.giveUp id c (.reprice (.simulationFailed e.message))
  | .ok outcome =>
    let cost := WriteCost.ofSimulation prepared.write prepared.outcome
    match reprice (Word.ofUInt64 r.config.fees.flatFeeGas) c.requestId c.op cost outcome with
    | .error e => r.giveUp id c (.reprice e)
    | .ok fee =>
      match Pair.create c.requestId prepared.write (c.op.withGas fee.estimate) fee.estimate
          r.systemAccount answer.fallback with
      | .error e => r.giveUp id c (.order e)
      | .ok pair =>
        let finish (r : Relay) (c : Candidate) : Relay × Progress :=
          ({ r with
              pending := Table.insert r.pending c.requestId ⟨pair, r.now⟩
              writer := r.writer.keep id prepared },
            .finished (.paired pair fee c.lifecycle))
        if answer.fallback.isSome then finish r c
        else
          match c.lifecycle.advance .completed with
          | .error e => r.giveUp id c (.lifecycle e)
          | .ok lifecycle =>
            finish (r.record c.requestId lifecycle.state) { c with lifecycle }

/-- Starts work on a request, unless one of its id is in flight or pending. -/
def takeOn (r : Relay) (op : Operation) (request : ComputeRequest) (block : BlockContext)
    (deadline : Nat) : Relay × Progress :=
  let requestId := request.requestId
  if Table.contains r.active requestId then
    (r, rejected (.write (.duplicateRequest requestId)))
  else
    let c : Candidate := ⟨op, request, block, deadline, .start requestId⟩
    (r.record requestId .detected).enter c .resolving fun r c => (r, .waiting (.resolving c))

/-- Leaves the lane after dropping the pairs that had expired. -/
def clear (r : Relay) (id : CallId) (since : Nat) : Relay × List Hash :=
  let (r, dropped) := r.giveBack fun _ entry => r.expired since entry
  (r.modifyLane (·.leave id), dropped)

/-- Takes the request of a simulated operation on, after dropping expired pairs. -/
def intercept (r : Relay) (id : CallId) (op : Operation) (outcome : Simulation)
    (deadline : Nat) : Relay × Progress :=
  match detect op outcome with
  | .error e => (r, rejected (.marker e))
  | .ok none => (r, .finished (.passthrough op))
  | .ok (some request) =>
    if r.pending.any fun e => r.expired r.now e.2 then
      let since := r.now
      let r := r.modifyLane (·.join id)
      if r.writer.lane.isHeldBy id then
        (r.clear id since).1.takeOn op request outcome.block deadline
      else (r, .waiting (.clearing since op request outcome.block deadline))
    else r.takeOn op request outcome.block deadline

/-- A bundle was dropped: its pairs go, with all pairs of higher nonces. -/
def dropPairs (r : Relay) (id : CallId) (requestIds : List Hash) : Relay × Progress :=
  let (r, dropped) := r.giveBack fun key _ => requestIds.contains key
  let r := (r.modifyLane (·.leave id)).forget requestIds
  let released := requestIds.foldl
    (fun all key => if all.contains key then all else all ++ [key]) dropped
  let r := r.modifyLane (·.join id)
  if r.writer.lane.isHeldBy id then
    (r.modifyLane fun lane => lane.forget.leave id, .finished (.released released))
  else (r, .waiting (.resyncing released))

inductive Job
  | process (op : Operation)
  | processSimulated (op : Operation) (outcome : Simulation)
  | expire
  | drop (requestIds : List Hash)

def begin (r : Relay) (id : CallId) : Job → Relay × Progress
  | .process op =>
    (r, .waiting (.readingBlock op (r.now + r.config.requestTimeoutMs.toNat)))
  | .processSimulated op outcome =>
    r.intercept id op outcome (r.now + r.config.requestTimeoutMs.toNat)
  | .expire =>
    if r.pending.any fun e => r.expired r.now e.2 then
      let since := r.now
      let r := r.modifyLane (·.join id)
      if r.writer.lane.isHeldBy id then
        let (r, dropped) := r.clear id since
        (r, .finished (.released dropped))
      else (r, .waiting (.expiring since))
    else (r, .finished (.released []))
  | .drop requestIds =>
    let r := r.modifyLane (·.join id)
    if r.writer.lane.isHeldBy id then r.dropPairs id requestIds
    else (r, .waiting (.dropping requestIds))

def resumeTurn (r : Relay) (id : CallId) (stage : Stage) : Relay × Progress :=
  match stage with
  | .clearing since op request block deadline =>
    (r.clear id since).1.takeOn op request block deadline
  | .expiring since =>
    let (r, dropped) := r.clear id since
    (r, .finished (.released dropped))
  | .dropping requestIds => r.dropPairs id requestIds
  | .resyncing released =>
    (r.modifyLane fun lane => lane.forget.leave id, .finished (.released released))
  | .drafting c answer .queued =>
    r.afterDrafting id c answer (r.writer.takeTurn id (c.draft answer))
  | stage => (r, .waiting stage)

/-- The call's query was answered. A reply of another kind changes nothing. -/
def resumeReply (r : Relay) (id : CallId) (stage : Stage) (reply : Reply) : Relay × Progress :=
  match stage, reply with
  | .readingBlock op deadline, .block (.ok block) => (r, .waiting (.simulating op block deadline))
  | .readingBlock _ _, .block (.error e) => (r, rejected (.ledger e))
  | .simulating op _ deadline, .simulation (.ok outcome) => r.intercept id op outcome deadline
  | .simulating _ _ _, .simulation (.error e) => (r, rejected (.ledger e))
  | .resolving c, .row (.ok row) =>
    match row.check c.request.account c.block with
    | .error e => r.reject c (.ofRegistry e)
    | .ok registration =>
      r.enter c .requesting fun r c => (r, .waiting (.asking c registration))
  | .resolving c, .row (.error e) => r.reject c (.ledger e)
  | .asking c registration, .response reply => r.afterResponse id c registration reply
  | .drafting c answer .reading, .nonce reply =>
    r.afterDrafting id c answer (r.writer.nonceRead id (c.draft answer) reply)
  | .drafting c answer (.simulating write), .simulation reply =>
    r.afterDrafting id c answer (r.writer.simulated id (c.draft answer) write reply)
  | .resimulating c answer prepared, .simulation reply =>
    r.afterResimulation id c answer prepared reply
  | stage, _ => (r, .waiting stage)

def resumeTimeout (r : Relay) (id : CallId) (stage : Stage) : Relay × Progress :=
  match stage with
  | .readingBlock _ _ => (r, rejected (.timeout .detected))
  | .simulating _ _ _ => (r, rejected (.timeout .detected))
  | .resolving c => r.reject c (.timeout c.lifecycle.state)
  | .asking c registration => r.afterResponse id c registration (.error .timeout)
  | .drafting c _ _ => r.giveUp id c (.timeout c.lifecycle.state)
  | .resimulating c _ _ => r.giveUp id c (.timeout c.lifecycle.state)
  | stage => (r, .waiting stage)

/-- The caller lets go of the call where it waits: what the call holds of the lane and of the
reservations is free again. -/
def abandonStage (r : Relay) (id : CallId) (stage : Stage) : Relay :=
  match stage with
  | .drafting c _ _ => { r with writer := r.writer.abandon id c.requestId }
  | .resimulating c _ _ => { r with writer := r.writer.abandon id c.requestId }
  | .clearing _ _ _ _ _ => r.modifyLane (·.leave id)
  | .expiring _ => r.modifyLane (·.leave id)
  | .dropping _ => r.modifyLane (·.leave id)
  | .resyncing _ => r.modifyLane (·.leave id)
  | _ => r

/-- Notes where a step left a call. -/
def settle (id : CallId) (step : Relay × Progress) : Relay × Option Result :=
  match step with
  | (r, .waiting stage) => ({ r with calls := Table.insert r.calls id stage }, none)
  | (r, .finished result) => ({ r with calls := Table.erase r.calls id }, some result)

inductive Event
  | start (id : CallId) (job : Job)
  /-- The call has become the holder of the lane. -/
  | turn (id : CallId)
  | reply (id : CallId) (r : Reply)
  | timeout (id : CallId)
  | abandon (id : CallId)
  /-- The pairs are gone through in some order, which no caller chooses. -/
  | attach (signed : Operation) (order : List Hash)
  | submitted (requestIds : List Hash)
  | tick (ms : Nat)

/-- One step of the relay. An event that does not apply changes nothing: a name that is in use or
unknown, a turn of a call that does not hold the lane, a deadline that has not come. -/
def step (r : Relay) : Event → Relay × Option Result
  | .start id job =>
    if Table.contains r.calls id then (r, none) else settle id (r.begin id job)
  | .turn id =>
    match Table.get? r.calls id with
    | some stage =>
      if r.writer.lane.isHeldBy id then settle id (r.resumeTurn id stage) else (r, none)
    | none => (r, none)
  | .reply id reply =>
    match Table.get? r.calls id with
    | some stage => settle id (r.resumeReply id stage reply)
    | none => (r, none)
  | .timeout id =>
    match Table.get? r.calls id with
    | some stage =>
      if stage.deadline?.any (· ≤ r.now) then settle id (r.resumeTimeout id stage) else (r, none)
    | none => (r, none)
  | .abandon id =>
    match Table.get? r.calls id with
    | some stage => ({ r.abandonStage id stage with calls := Table.erase r.calls id }, none)
    | none => (r, none)
  | .attach signed order => ((r.attach signed order).1, none)
  | .submitted requestIds => (r.markSubmitted requestIds, none)
  | .tick ms => (r.advance ms, none)

end Relay

end ComputeRelay
