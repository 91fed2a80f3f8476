import ComputeRelay.Node.Client
import ComputeRelay.Relay.Step
import ComputeRelay.Service.Client

/-! A relay whose queries are answered over HTTP, by a node and by the registered services. -/

namespace ComputeRelay

/-- Posts a request and waits for its reply, for at most the milliseconds given, and says how many
of them passed. -/
abbrev Post (m : Type → Type) := HttpRequest → (limitMs : Option Nat) → m (HttpOutcome × Nat)

/-- What the exchanges of one run share: the time, and the numbers by which replies are told
apart. -/
structure Session where
  now : Nat := 0
  nodeCallId : Nat := 1
  serviceCallId : Nat := 1
deriving DecidableEq, Repr

/-- Work within a session that ends without a value when its time is up. -/
abbrev Timed (m : Type → Type) := OptionT (StateT Session m)

structure Network (m : Type → Type) where
  config : Config
  node : Url
  post : Post m

namespace Network

variable {m : Type → Type} [Monad m]

def exchange (net : Network m) (request : HttpRequest) (limitMs : Option Nat) :
    Timed m HttpOutcome := do
  let (outcome, ms) ← (net.post request limitMs : m _)
  modify fun s => { s with now := s.now + ms }
  return outcome

/-- Calls the node, until the deadline. -/
def callNode (net : Network m) (deadline : Option Nat) (call : RpcCall) : Timed m RpcReply := do
  let s ← get
  set { s with nodeCallId := s.nodeCallId + 1 }
  if !net.node.isHttp then return .broken "the node's address cannot be called"
  let request : HttpRequest := ⟨net.node, (call.toJson s.nodeCallId).compact⟩
  match ← net.exchange request (deadline.map (· - s.now)) with
  | .reply r => return if r.isComplete then .ofBody r.body else .broken "the body broke off"
  | .failed detail => return .broken detail
  | .timedOut => failure

def nodeClient (net : Network m) (deadline : Option Nat) : NodeClient (Timed m) where
  config := net.config
  call := net.callNode deadline

/-- Calls a service, until the deadline or for as long as a call may take. -/
def callService (net : Network m) (deadline : Option Nat) (request : HttpRequest)
    (limitMs : Nat) : Timed m HttpOutcome := do
  let left := deadline.map (· - (← get).now)
  match ← net.exchange request (some ((left.map (min limitMs)).getD limitMs)) with
  | .timedOut => if left.any (· < limitMs) then failure else return .timedOut
  | outcome => return outcome

def serviceClient (net : Network m) (deadline : Option Nat) : ServiceClient (Timed m) where
  config := net.config.service
  post := net.callService deadline

/-- The answer to a query, if it comes before the deadline. -/
def answer (net : Network m) (deadline : Option Nat) : Query → Timed m Reply
  | .latestBlock => .block <$> (net.nodeClient deadline).latestBlock
  | .registryRow account block => .row <$> (net.nodeClient deadline).registryRow account block
  | .nonce account => .nonce <$> (net.nodeClient deadline).nonce account
  | .simulate behind op block => .simulation <$> (net.nodeClient deadline).simulate behind op block
  | .respond registration request => do
    let s ← get
    set { s with serviceCallId := s.serviceCallId + 1 }
    .response <$> (net.serviceClient deadline).request s.serviceCallId registration request

/-- Runs the only call of a relay to its end. Every step takes it to a later stage, and there are
fewer stages than `fuel`. -/
def finish (net : Network m) (id : CallId) : (fuel : Nat) → Relay →
    StateT Session m (Relay × Option Result)
  | 0, r => return (r, none)
  | fuel + 1, r => do
    let some stage := Table.get? r.calls id | return (r, none)
    let event ← match stage.query? r.systemAccount with
      | none => pure (Relay.Event.turn id)
      | some query =>
        match ← (net.answer stage.deadline? query).run with
        | some reply => pure (.reply id reply)
        | none => pure (.timeout id)
    let now := (← get).now
    let (r, result) := (r.advance (now - r.now)).step event
    match result with
    | some result => return (r, some result)
    | none => net.finish id fuel r

/-- Takes an operation through a relay. -/
def process (net : Network m) (r : Relay) (op : Operation) :
    StateT Session m (Relay × Option Result) := do
  match r.step (.start "operation" (.process op)) with
  | (r, some result) => return (r, some result)
  | (r, none) => net.finish "operation" 32 r

/-- The registration of an account at the latest block. -/
def resolve (net : Network m) (account : Address) :
    Timed m (Except Rejection Registration) := do
  match ← (net.nodeClient none).latestBlock with
  | .error e => return .error (.ledger e)
  | .ok block =>
    match ← (net.nodeClient none).registryRow account block with
    | .error e => return .error (.ledger e)
    | .ok row => return (row.check account block).mapError .ofRegistry

end Network

end ComputeRelay
