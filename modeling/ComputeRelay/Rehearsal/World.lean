import ComputeRelay.Relay.State

/-! A scripted ledger and off-chain service for rehearsals. What the script leaves open follows the
state of the ledger: its block, its registrations, nonces and cached responses. -/

namespace ComputeRelay.Rehearsal

/-- The reads of the ledger that a script tells apart. -/
inductive Method
  | latestBlock
  | registeredCaller
  | nonce
  | simulateUser
  | simulateSystem
deriving DecidableEq, Repr

def Method.name : Method → String
  | .latestBlock => "latestBlock"
  | .registeredCaller => "registeredCaller"
  | .nonce => "nonce"
  | .simulateUser => "simulateUser"
  | .simulateSystem => "simulateSystem"

/-- How one read goes: it waits, then fails or gives an outcome, or reads the ledger. -/
structure Read where
  delayMs : Nat := 0
  error : Option LedgerError := none
  outcome : Option Simulation := none
deriving Repr, Inhabited

/-- How the service takes one call. -/
inductive Reaction
  | hang
  | fail (e : ServiceError)
  | respond
deriving Repr

/-- One answer of the service, with what is changed in a response after it is signed. -/
structure ServiceCall where
  delayMs : Nat := 0
  reaction : Reaction := .respond
  key : Bytes := List.replicate 32 0x21
  code : ErrorCode := .none
  result : Bytes := Word.toBytes 42
  payloadRequestId : Option Hash := none
  payload : Option Bytes := none
  signature : Option Bytes := none
  success : Option Bool := none
deriving Repr

structure World where
  systemAccount : Address
  helper : Address
  block : BlockContext := ⟨100, BitVec.ofNat 256 (Bytes.toNat (List.replicate 32 0xb1)), 1700000000⟩
  rows : Table Address RegistryRow := []
  nonces : Table Address Word := []
  cache : Table Hash Bytes := []
  reads : Table Method (List Read) := []
  services : Table Address (List ServiceCall) := []
  /-- The calls made, the latest one first. -/
  log : List String := []

/-- A query that was made, and what the script says about it. -/
structure InFlight where
  query : Query
  /-- When the answer is ready; `none` for never. -/
  readyAt : Option Nat
  read : Read := {}
  service : ServiceCall := {}

/-- What is done to a world between the steps of a rehearsal. -/
inductive WorldStep
  | setBlock (block : BlockContext)
  | register (account : Address) (row : RegistryRow)
  | setNonce (account : Address) (nonce : Word)
  | putCache (requestId : Hash) (payload : Bytes)
  | script (method : Method) (reads : List Read)
  | service (account : Address) (calls : List ServiceCall)

namespace World

def apply (w : World) : WorldStep → World
  | .setBlock block => { w with block }
  | .register account row => { w with rows := Table.insert w.rows account row }
  | .setNonce account nonce => { w with nonces := Table.insert w.nonces account nonce }
  | .putCache requestId payload => { w with cache := Table.insert w.cache requestId payload }
  | .script method reads =>
    let queue := (Table.get? w.reads method).getD []
    { w with reads := Table.insert w.reads method (queue ++ reads) }
  | .service account calls =>
    let queue := (Table.get? w.services account).getD []
    { w with services := Table.insert w.services account (queue ++ calls) }

def takeRead (w : World) (method : Method) : World × Read :=
  match Table.get? w.reads method with
  | some (read :: rest) => ({ w with reads := Table.insert w.reads method rest }, read)
  | _ => (w, {})

/-- The next answer of an account's own service, else of the general one. -/
def takeServiceCall (w : World) (account : Address) : World × ServiceCall :=
  let take (account : Address) : Option (World × ServiceCall) :=
    match Table.get? w.services account with
    | some (call :: rest) =>
      some ({ w with services := Table.insert w.services account rest }, call)
    | _ => none
  ((take account).orElse fun _ => take 0).getD (w, {})

def note (w : World) (line : String) : World := { w with log := line :: w.log }

def takeLog (w : World) : World × List String := ({ w with log := [] }, w.log.reverse)

def methodOf (w : World) : Query → Option Method
  | .latestBlock => some .latestBlock
  | .registryRow _ _ => some .registeredCaller
  | .nonce _ => some .nonce
  | .simulate _ op _ =>
    some (if op.sender = w.systemAccount then .simulateSystem else .simulateUser)
  | .respond _ _ => none

def logLine (method : Method) : Query → String
  | .registryRow _ block => method.name ++ "@" ++ toString block.number.toNat
  | .simulate behind _ block =>
    method.name ++ "@" ++ toString block.number.toNat ++ "+" ++ toString behind.length
  | _ => method.name

/-- Makes a query: it is logged, and takes what the script has for it. -/
def ask (w : World) (now : Nat) (query : Query) : World × InFlight :=
  match w.methodOf query, query with
  | some method, _ =>
    let (w, read) := w.takeRead method
    (w.note (logLine method query), { query, readyAt := some (now + read.delayMs), read })
  | none, .respond registration _ =>
    let (w, service) := w.takeServiceCall registration.account
    let readyAt := match service.reaction with
      | .hang => none
      | _ => some (now + service.delayMs)
    (w.note ("request@" ++ registration.endpoint), { query, readyAt, service })
  | none, _ => (w, { query, readyAt := none })

/-- Whether a request's response is cached or written by one of the operations in front. -/
def isAnswered (w : World) (behind : List Operation) (requestId : Hash) : Bool :=
  Table.contains w.cache requestId ||
    behind.any fun op =>
      op.sender == w.systemAccount &&
        (CacheWrite.decode? op.callData w.helper).any fun put => put.1 == requestId

def simulateSystem (w : World) (behind : List Operation) (op : Operation) (block : BlockContext) :
    Simulation :=
  let outcome : Simulation := { verificationGas := 70000, callGas := 55000, block }
  match CacheWrite.decode? op.callData w.helper with
  | none => { outcome with revertData := [0xde, 0xad] }
  | some (requestId, _) =>
    if w.isAnswered behind requestId then
      { outcome with revertData := (DuplicateEntry.mk requestId).encode }
    else { outcome with success := true }

def simulateUser (w : World) (behind : List Operation) (op : Operation) (block : BlockContext) :
    Simulation :=
  let outcome : Simulation := { verificationGas := 90000, callGas := 64000, block }
  match HybridCall.decode? op.callData with
  | none => { outcome with success := true }
  | some call =>
    let requestId := deriveRequestId call.account op.sender op.nonce call.callParams
    if w.isAnswered behind requestId then { outcome with success := true }
    else { outcome with revertData := (Marker.mk call.account requestId call.callParams).encode }

/-- What the service answers to a request. -/
def respond (call : ServiceCall) (registration : Registration) (request : ComputeRequest) :
    Except ServiceError ComputeResponse :=
  match call.reaction with
  | .fail e => .error e
  | .hang => .error .timeout
  | .respond =>
    match SigningKey.ofBytes? call.key with
    | none => .error (.unreachable "service has no key")
    | some key => do
      let sign (payload : Bytes) : Except ServiceError Bytes :=
        match key.sign? (responseDigest request.requestId payload) with
        | some signature => .ok signature
        | none => .error (.unreachable "service could not sign")
      let encode (requestId : Hash) : Bytes :=
        (Payload.mk requestId call.code.toUInt32 call.result).encode
      let payload := match call.payloadRequestId with
        | some requestId => encode requestId
        | none => call.payload.getD (encode request.requestId)
      let signature ← match call.signature with
        | some signature => .ok signature
        | none => sign payload
      return {
        success := call.success.getD (decide (call.code = .none))
        payload
        signer := registration.signer
        signature }

/-- The answer to a query that was made, in the world as it is when the answer is ready. -/
def answer (w : World) (f : InFlight) : Reply :=
  match f.query with
  | .latestBlock => .block (orElse (pure w.block))
  | .registryRow account _ => .row (orElse (pure ((Table.get? w.rows account).getD ⟨0, ""⟩)))
  | .nonce account => .nonce (orElse (pure ((Table.get? w.nonces account).getD 0)))
  | .simulate behind op block =>
    .simulation <| orElse <| pure <| f.read.outcome.getD <|
      if op.sender = w.systemAccount then w.simulateSystem behind op block
      else w.simulateUser behind op block
  | .respond registration request => .response (respond f.service registration request)
where
  orElse {α : Type} (value : Except LedgerError α) : Except LedgerError α :=
    match f.read.error with
    | some e => .error e
    | none => value

end World

end ComputeRelay.Rehearsal
