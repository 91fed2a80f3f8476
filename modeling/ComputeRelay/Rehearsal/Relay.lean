import ComputeRelay.Rehearsal.Schedule
import ComputeRelay.Rehearsal.World
import ComputeRelay.Relay.Step

/-! Rehearsing a relay step by step. Time passes only while every call waits, and then up to the
next instant at which one can go on. -/

namespace ComputeRelay.Rehearsal

/-- An item of a bundle, where a pair is named by its request. -/
inductive ItemName
  | single (op : Operation)
  | pair (requestId : Hash)

inductive RelayStep
  | world (step : WorldStep)
  | process (op : Operation)
  | processSimulated (op : Operation) (outcome : Simulation)
  | batch (ops : List Operation)
  | resolve (account : Address)
  | attach (signed : Operation)
  /-- Attaches the operation of a pending pair with another signature. -/
  | resign (requestId : Hash) (signature : Bytes)
  | assemble (maxOps : Nat) (items : List ItemName)
  /-- Executes the cache write of a pending pair on the ledger. -/
  | commit (requestId : Hash)
  | submitted (requestIds : List Hash)
  | dropped (requestIds : List Hash)
  | expire
  | advance (ms : Nat)
  | config

inductive RelayValue
  | none
  | result (r : Result)
  | results (rs : List Result)
  | registration (r : Except Rejection Registration)
  | pair (r : Except Rejection Pair)
  | bundle (r : Except Rejection Bundle)
  | config (c : Config)

structure RelayEntry where
  value : RelayValue
  now : Nat
  active : List (Hash × RequestState)
  pending : List (Hash × Word)
  calls : List String

structure RelayRehearsal where
  world : World
  relay : Relay
  inFlight : Table CallId InFlight := []
  results : Table CallId Result := []

namespace RelayRehearsal

def create (config : Config) (signer : Signer) : Except ConfigError RelayRehearsal := do
  let relay ← Relay.create config signer
  return { relay, world := { systemAccount := config.systemAccount, helper := config.helper } }

/-- Lets an event happen to a call, whose query is then no longer in flight. -/
def happen (s : RelayRehearsal) (id : CallId) (event : Relay.Event) : RelayRehearsal :=
  let (relay, result) := s.relay.step event
  { s with
    relay
    inFlight := Table.erase s.inFlight id
    results := match result with
      | some result => Table.insert s.results id result
      | none => s.results }

/-- One move of a call, if it can make one: an answer that is ready, and a turn that has come, go
before a deadline that has passed. -/
def move (id : CallId) (s : RelayRehearsal) : Option RelayRehearsal := do
  let stage ← Table.get? s.relay.calls id
  let late : Option RelayRehearsal :=
    if stage.deadline?.any (· ≤ s.relay.now) then some (s.happen id (.timeout id)) else none
  match stage.query? s.relay.systemAccount, Table.get? s.inFlight id with
  | none, _ => if s.relay.writer.lane.isHeldBy id then some (s.happen id (.turn id)) else late
  | some query, none =>
    let (world, f) := s.world.ask s.relay.now query
    return { s with world, inFlight := Table.insert s.inFlight id f }
  | some _, some f =>
    if f.readyAt.any (· ≤ s.relay.now) then some (s.happen id (.reply id (s.world.answer f)))
    else late

/-- The next instant at which a call can go on. -/
def nextInstant? (s : RelayRehearsal) : Option Nat :=
  let ready := s.inFlight.filterMap fun e => e.2.readyAt
  let deadlines := s.relay.calls.filterMap fun e => e.2.deadline?
  ((ready ++ deadlines).filter (s.relay.now < ·)).min?

/-- Runs calls until all of them have ended. -/
def finish (ids : List CallId) : (fuel : Nat) → RelayRehearsal → RelayRehearsal
  | 0, s => s
  | fuel + 1, s =>
    let s := settleAll move (32 * ids.length + 32) ids s
    if s.relay.calls.isEmpty then s
    else
      match s.nextInstant? with
      | none => s
      | some t => finish ids fuel { s with relay := s.relay.advance (t - s.relay.now) }

/-- Starts jobs in their order, each going as far as it can, and runs them to their ends. -/
def runJobs (s : RelayRehearsal) (jobs : List Relay.Job) : RelayRehearsal × List Result :=
  let names := jobs.zipIdx.map fun (job, i) => (toString i, job)
  let fuel := 32 * jobs.length + 32
  let s := names.foldl
    (fun s (id, job) => exhaust (move id) fuel (s.happen id (.start id job))) s
  let ids := names.map (·.1)
  let s := finish ids fuel s
  let results := ids.filterMap (Table.get? s.results)
  ({ s with results := [], inFlight := [] }, results)

/-- Asks the ledger one question and waits for the answer. -/
def ask (s : RelayRehearsal) (query : Query) : RelayRehearsal × Reply :=
  let (world, f) := s.world.ask s.relay.now query
  let relay := { s.relay with now := f.readyAt.getD s.relay.now }
  ({ s with world, relay }, world.answer f)

def resolve (s : RelayRehearsal) (account : Address) :
    RelayRehearsal × Except Rejection Registration :=
  match s.ask .latestBlock with
  | (s, .block (.ok block)) =>
    match s.ask (.registryRow account block) with
    | (s, .row (.ok row)) => (s, (row.check account block).mapError .ofRegistry)
    | (s, .row (.error e)) => (s, .error (.ledger e))
    | (s, _) => (s, .error (.ledger (.transport "no answer")))
  | (s, .block (.error e)) => (s, .error (.ledger e))
  | (s, _) => (s, .error (.ledger (.transport "no answer")))

def item? (s : RelayRehearsal) : ItemName → Option BundleItem
  | .single op => some (.single op)
  | .pair requestId => (Table.get? s.relay.pending requestId).map fun e => .pair e.pair

def assemble (s : RelayRehearsal) (maxOps : Nat) (items : List ItemName) :
    RelayRehearsal × Except Rejection Bundle :=
  match s.ask (.nonce s.relay.systemAccount) with
  | (s, .nonce (.ok nonce)) => (s, .ok (Bundle.assemble maxOps nonce (items.filterMap s.item?)))
  | (s, .nonce (.error e)) => (s, .error (.ledger e))
  | (s, _) => (s, .error (.ledger (.transport "no answer")))

def attach (s : RelayRehearsal) (signed : Operation) : RelayRehearsal × RelayValue :=
  let (relay, r) := s.relay.attach signed []
  ({ s with relay }, .pair r)

def runJob (s : RelayRehearsal) (job : Relay.Job) : RelayRehearsal × RelayValue :=
  match s.runJobs [job] with
  | (s, [r]) => (s, .result r)
  | (s, _) => (s, .none)

def apply (s : RelayRehearsal) : RelayStep → RelayRehearsal × RelayValue
  | .world step => ({ s with world := s.world.apply step }, .none)
  | .process op => s.runJob (.process op)
  | .processSimulated op outcome => s.runJob (.processSimulated op outcome)
  | .batch ops =>
    let (s, results) := s.runJobs (ops.map .process)
    (s, .results results)
  | .resolve account =>
    let (s, r) := s.resolve account
    (s, .registration r)
  | .attach signed => s.attach signed
  | .resign requestId signature =>
    match Table.get? s.relay.pending requestId with
    | some e => s.attach { e.pair.served with signature }
    | none => (s, .none)
  | .assemble maxOps items =>
    let (s, r) := s.assemble maxOps items
    (s, .bundle r)
  | .commit requestId =>
    let write := do
      let e ← Table.get? s.relay.pending requestId
      CacheWrite.decode? e.pair.write.callData s.world.helper
    match write with
    | some (requestId, payload) =>
      ({ s with world := s.world.apply (.putCache requestId payload) }, .none)
    | none => (s, .none)
  | .submitted requestIds => ({ s with relay := s.relay.markSubmitted requestIds }, .none)
  | .dropped requestIds => s.runJob (.drop requestIds)
  | .expire => s.runJob .expire
  | .advance ms => ({ s with relay := s.relay.advance ms }, .none)
  | .config => (s, .config s.relay.config)

def step (s : RelayRehearsal) (r : RelayStep) : RelayRehearsal × RelayEntry :=
  let (s, value) := s.apply r
  let (world, calls) := s.world.takeLog
  let pending := (s.relay.pending.map fun e => (e.1, e.2.pair.write.nonce)).mergeSort fun a b =>
    decide (a.2.toNat < b.2.toNat ∨ (a.2 = b.2 ∧ a.1.toNat ≤ b.1.toNat))
  ({ s with world }, ⟨value, s.relay.now, s.relay.activeRequests, pending, calls⟩)

def run (config : Config) (signer : Signer) (steps : List RelayStep) :
    Except ConfigError (List RelayEntry) := do
  let s ← create config signer
  return (steps.foldl
    (fun (s, entries) r =>
      let (s, entry) := RelayRehearsal.step s r
      (s, entries ++ [entry]))
    (s, [])).2

end RelayRehearsal

end ComputeRelay.Rehearsal
