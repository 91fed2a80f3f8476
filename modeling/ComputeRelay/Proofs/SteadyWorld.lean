import ComputeRelay.Proofs.Openings

/-! A world that answers the same question in the same way at all times, and makes no difference
between the nonces of a cache write. Such a world has one verdict on each operation. A call heads
for the verdict on its operation wherever it waits, whichever nonce it has been granted. -/

namespace ComputeRelay

open Relay

/-- What the ledger and the service answer. -/
structure SteadyWorld (config : Config) (signer : Signer) where
  block : Except LedgerError BlockContext
  row : Address → BlockContext → Except LedgerError RegistryRow
  /-- The nonce of the system account. -/
  nonce : Word
  simulate : List Operation → Operation → BlockContext → Except LedgerError Simulation
  respond : ComputeRequest → Except ServiceError ComputeResponse
  /-- Writes that differ in nonce and signature only are simulated alike. -/
  blind : ∀ {served : Operation} {requestId : Hash} {response : ComputeResponse}
    {write write' : Operation}, Written config signer served requestId response write →
    Written config signer served requestId response write' → ∀ (op : Operation)
    (block : BlockContext), simulate [] write block = simulate [] write' block ∧
      simulate [write] op block = simulate [write'] op block
  /-- A write that the signer cannot sign at one nonce cannot be signed at another. -/
  signs : ∀ {served : Operation} {requestId : Hash} {response : ComputeResponse} {nonce : Word}
    {e : WriteError},
    CacheWriter.build { config, signer } served requestId response nonce = .error e →
    ∀ nonce', CacheWriter.build { config, signer } served requestId response nonce' = .error e

/-- The operation without what tells the writes of one response from each other. -/
def Operation.blanked (op : Operation) : Operation := { op with nonce := 0, signature := [] }

def Result.blanked : Result → Result
  | .paired pair fee l => .paired { pair with write := pair.write.blanked } fee l
  | result => result

/-- What a request ends with that enters its next state, when it goes on as `next` says. -/
def Candidate.entering (c : Candidate) (state : RequestState) (next : Candidate → Result) :
    Result :=
  match c.lifecycle.advance state with
  | .error e => .rejected (.lifecycle e)
  | .ok lifecycle => next { c with lifecycle }

namespace SteadyWorld

variable {config : Config} {signer : Signer} (w : SteadyWorld config signer)

def answer : Query → Reply
  | .latestBlock => .block w.block
  | .registryRow account block => .row (w.row account block)
  | .nonce _ => .nonce (.ok w.nonce)
  | .simulate behind op block => .simulation (w.simulate behind op block)
  | .respond _ request => .response (w.respond request)

/-! The work on one request, from its end to its beginning. -/

def priced (c : Candidate) (answer : Answer) (prepared : Prepared) : Result :=
  match w.simulate [prepared.write] c.op c.block with
  | .error e => .rejected (.reprice (.simulationFailed e.message))
  | .ok outcome =>
    match reprice (Word.ofUInt64 config.fees.flatFeeGas) c.requestId c.op
        (.ofSimulation prepared.write prepared.outcome) outcome with
    | .error e => .rejected (.reprice e)
    | .ok fee =>
      match Pair.create c.requestId prepared.write (c.op.withGas fee.estimate) fee.estimate
          config.systemAccount answer.fallback with
      | .error e => .rejected (.order e)
      | .ok pair =>
        if answer.fallback.isSome then .paired pair fee c.lifecycle
        else c.entering .completed fun c => .paired pair fee c.lifecycle

def written (c : Candidate) (answer : Answer) (write : Operation) : Result :=
  match w.simulate [] write c.block with
  | .error e => .rejected (.write (.ledger e))
  | .ok outcome =>
    match checkWrite c.requestId outcome with
    | .error e => .rejected (.write e)
    | .ok () =>
      if answer.fallback.isSome then w.priced c answer ⟨write, outcome⟩
      else c.entering .reestimating fun c => w.priced c answer ⟨write, outcome⟩

def drafted (c : Candidate) (answer : Answer) (nonce : Word) : Result :=
  match CacheWriter.build { config, signer } c.op c.requestId answer.response nonce with
  | .error e => .rejected (.write e)
  | .ok write => w.written c answer write

def asked (c : Candidate) (registration : Registration) : Result :=
  match w.respond c.request with
  | .ok response =>
    c.entering .verifying fun c =>
      match response.verify c.request registration.signer with
      | .error e => .rejected (.response e)
      | .ok _ => c.entering .populating fun c => w.drafted c ⟨response, none⟩ w.nonce
  | .error e =>
    c.entering (.failed e.reason) fun c =>
      match (idle config signer).standInResponse c.request e.code with
      | .error e => .rejected e
      | .ok response => w.drafted c ⟨response, some e.code⟩ w.nonce

def resolved (c : Candidate) : Result :=
  match w.row c.request.account c.block with
  | .error e => .rejected (.ledger e)
  | .ok row =>
    match row.check c.request.account c.block with
    | .error e => .rejected (.ofRegistry e)
    | .ok registration => c.entering .requesting fun c => w.asked c registration

def simulated (op : Operation) (block : BlockContext) : Result :=
  match w.simulate [] op block with
  | .error e => .rejected (.ledger e)
  | .ok outcome =>
    match detect op outcome with
    | .error e => .rejected (.marker e)
    | .ok none => .passthrough op
    | .ok (some request) =>
      (⟨op, request, outcome.block, 0, .start request.requestId⟩ : Candidate).entering .resolving
        w.resolved

/-- What the world makes of an operation. -/
def verdict (op : Operation) : Result :=
  match w.block with
  | .error e => .rejected (.ledger e)
  | .ok block => w.simulated op block

/-- The request that an operation makes. -/
def request? (op : Operation) : Option ComputeRequest := do
  let block ← w.block.toOption
  let outcome ← (w.simulate [] op block).toOption
  (← (detect op outcome).toOption)

def key? (op : Operation) : Option Hash := (w.request? op).map (·.requestId)

/-- What a call heads for, where it waits. -/
def ahead? : Stage → Option Result
  | .readingBlock op _ => some (w.verdict op)
  | .simulating op block _ => some (w.simulated op block)
  | .resolving c => some (w.resolved c)
  | .asking c registration => some (w.asked c registration)
  | .drafting c answer .queued => some (w.drafted c answer w.nonce)
  | .drafting c answer .reading => some (w.drafted c answer w.nonce)
  | .drafting c answer (.simulating write) => some (w.written c answer write)
  | .resimulating c answer prepared => some (w.priced c answer prepared)
  | _ => none

/-- A call heads for this result, apart from the nonce and the signature of the write. -/
inductive HeadsFor (result : Result) : Progress → Prop
  | waiting {stage : Stage} {result' : Result} (ahead : w.ahead? stage = some result')
      (alike : result'.blanked = result.blanked) : HeadsFor result (.waiting stage)
  | finished {result' : Result} (alike : result'.blanked = result.blanked) :
      HeadsFor result (.finished result')

end SteadyWorld

variable {config : Config} {signer : Signer} {w : SteadyWorld config signer} {r : Relay}
  {id : CallId} {c : Candidate} {answer : Answer} {op : Operation} {result : Result}

theorem Written.blanked_eq {served : Operation} {requestId : Hash} {response : ComputeResponse}
    {write write' : Operation} (h : Written config signer served requestId response write)
    (h' : Written config signer served requestId response write') :
    write.blanked = write'.blanked := by
  obtain ⟨nonce, hbuild⟩ := h
  obtain ⟨nonce', hbuild'⟩ := h'
  obtain ⟨signature, -, rfl⟩ := CacheWriter.build_eq_ok.mp hbuild
  obtain ⟨signature', -, rfl⟩ := CacheWriter.build_eq_ok.mp hbuild'
  rfl

theorem Candidate.entering_alike {f g : Candidate → Result} {state : RequestState}
    (h : ∀ l : Lifecycle,
      (f { c with lifecycle := l }).blanked = (g { c with lifecycle := l }).blanked) :
    (c.entering state f).blanked = (c.entering state g).blanked := by
  unfold Candidate.entering
  cases c.lifecycle.advance state with
  | error e => rfl
  | ok l => exact h l

namespace SteadyWorld

theorem priced_alike {write write' : Operation} {response : ComputeResponse}
    (h : Written config signer c.op c.requestId response write)
    (h' : Written config signer c.op c.requestId response write') (outcome : Simulation) :
    (w.priced c answer ⟨write, outcome⟩).blanked =
      (w.priced c answer ⟨write', outcome⟩).blanked := by
  have hblanked := h.blanked_eq h'
  have hsim := (w.blind h h' c.op c.block).2
  obtain ⟨nonce, hbuild⟩ := h
  obtain ⟨nonce', hbuild'⟩ := h'
  have hspec := CacheWriter.build_spec hbuild
  have hspec' := CacheWriter.build_spec hbuild'
  have hcost : WriteCost.ofSimulation write outcome = WriteCost.ofSimulation write' outcome := by
    rw [WriteCost.ofSimulation, WriteCost.ofSimulation, hspec.gas, hspec'.gas]
  unfold priced
  rw [hsim, hcost]
  cases w.simulate [write'] c.op c.block with
  | error e => rfl
  | ok resimulated =>
    simp only
    cases reprice (Word.ofUInt64 config.fees.flatFeeGas) c.requestId c.op
        (.ofSimulation write' outcome) resimulated with
    | error e => rfl
    | ok fee =>
      have hsender : write.sender = config.systemAccount := hspec.sender
      have hsender' : write'.sender = config.systemAccount := hspec'.sender
      simp only [Pair.create, hsender, hsender', ne_eq, not_true_eq_false, if_false]
      by_cases hserved : (c.op.withGas fee.estimate).sender = config.systemAccount
      · simp only [hserved, if_true]
      · simp only [hserved, if_false]
        split
        · simp only [Result.blanked, hblanked]
        · refine Candidate.entering_alike fun l => ?_
          simp only [Result.blanked, hblanked]

theorem written_alike {write write' : Operation}
    (h : Written config signer c.op c.requestId answer.response write)
    (h' : Written config signer c.op c.requestId answer.response write') :
    (w.written c answer write).blanked = (w.written c answer write').blanked := by
  unfold written
  rw [(w.blind h h' c.op c.block).1]
  cases w.simulate [] write' c.block with
  | error e => rfl
  | ok outcome =>
    simp only
    cases checkWrite c.requestId outcome with
    | error e => rfl
    | ok =>
      simp only
      split
      · exact priced_alike h h' outcome
      · refine Candidate.entering_alike fun l => ?_
        exact priced_alike (c := { c with lifecycle := l }) h h' outcome

/-- A request ends the same way at every nonce. -/
theorem drafted_alike (w : SteadyWorld config signer) (c : Candidate) (answer : Answer)
    (nonce nonce' : Word) :
    (w.drafted c answer nonce).blanked = (w.drafted c answer nonce').blanked := by
  unfold drafted
  -- the signer gives a signature at both nonces, or the same error at both
  cases hbuild : CacheWriter.build { config, signer } c.op c.requestId answer.response nonce with
  | error e => rw [w.signs hbuild nonce']
  | ok write =>
    cases hbuild' : CacheWriter.build { config, signer } c.op c.requestId answer.response
        nonce' with
    | error e => cases (w.signs hbuild' nonce).symm.trans hbuild
    | ok write' => exact written_alike ⟨nonce, hbuild⟩ ⟨nonce', hbuild'⟩

theorem HeadsFor.congr {result' : Result} {p : Progress} (h : w.HeadsFor result p)
    (alike : result.blanked = result'.blanked) : w.HeadsFor result' p := by
  cases h with
  | waiting ahead h => exact .waiting ahead (h.trans alike)
  | finished h => exact .finished (h.trans alike)

end SteadyWorld

open SteadyWorld

theorem enter_heads {state : RequestState} {go : Relay → Candidate → Relay × Progress}
    {next : Candidate → Result}
    (h : ∀ l : Lifecycle, w.HeadsFor (next { c with lifecycle := l })
      (go (r.record c.requestId l.state) { c with lifecycle := l }).2) :
    w.HeadsFor (c.entering state next) (r.enter c state go).2 := by
  unfold Relay.enter Candidate.entering
  cases c.lifecycle.advance state with
  | error e => exact .finished rfl
  | ok l => exact h l

theorem withNonce_heads (w : SteadyWorld config signer) {writer : CacheWriter}
    (hconfig : writer.config = config) (hsigner : writer.signer = signer) (nonce : Word) :
    w.HeadsFor (w.drafted c answer w.nonce)
      (r.afterDrafting id c answer (writer.withNonce id (c.draft answer) nonce)).2 := by
  subst hconfig hsigner
  refine HeadsFor.congr ?_ (w.drafted_alike c answer nonce w.nonce)
  unfold CacheWriter.withNonce drafted
  cases hbuild : writer.build c.op c.requestId answer.response nonce with
  | error e =>
    have hbuild' : writer.build (c.draft answer).served (c.draft answer).requestId
        (c.draft answer).response nonce = .error e := hbuild
    have hplain : CacheWriter.build ⟨writer.config, writer.signer, {}, []⟩ c.op c.requestId
        answer.response nonce = .error e := hbuild
    rw [hbuild', hplain]
    exact .finished rfl
  | ok write =>
    have hbuild' : writer.build (c.draft answer).served (c.draft answer).requestId
        (c.draft answer).response nonce = .ok write := hbuild
    have hplain : CacheWriter.build ⟨writer.config, writer.signer, {}, []⟩ c.op c.requestId
        answer.response nonce = .ok write := hbuild
    rw [hbuild', hplain]
    exact .waiting rfl rfl

theorem takeTurn_heads (w : SteadyWorld config signer) {writer : CacheWriter}
    (hconfig : writer.config = config) (hsigner : writer.signer = signer) :
    w.HeadsFor (w.drafted c answer w.nonce)
      (r.afterDrafting id c answer (writer.takeTurn id (c.draft answer))).2 := by
  unfold CacheWriter.takeTurn
  cases writer.lane.standing id with
  | waiting => exact .waiting rfl rfl
  | reading => exact .waiting rfl rfl
  | granted nonce => exact withNonce_heads w hconfig hsigner nonce

theorem startDrafting_heads (w : SteadyWorld config signer) (hconfig : r.config = config)
    (hsigner : r.writer.signer = signer) (free : r.writer.isReserved c.requestId = false) :
    w.HeadsFor (w.drafted c answer w.nonce) (r.startDrafting id c answer).2 := by
  have hfree : r.writer.isReserved (c.draft answer).requestId = false := free
  unfold Relay.startDrafting CacheWriter.start
  rw [hfree]
  exact takeTurn_heads w hconfig hsigner

theorem simulated_heads (w : SteadyWorld config signer) (write : Operation) :
    w.HeadsFor (w.written c answer write) (r.afterDrafting id c answer
      (r.writer.simulated id (c.draft answer) write (w.simulate [] write c.block))).2 := by
  unfold CacheWriter.simulated written
  cases w.simulate [] write c.block with
  | error e => exact .finished rfl
  | ok outcome =>
    simp only [Candidate.draft]
    cases checkWrite c.requestId outcome with
    | error e => exact .finished rfl
    | ok =>
      simp only [Relay.afterDrafting, Candidate.entering]
      split
      · exact .waiting rfl rfl
      · cases c.lifecycle.advance .reestimating with
        | error e => exact .finished rfl
        | ok l => exact .waiting rfl rfl

theorem afterResponse_heads (w : SteadyWorld config signer) (hconfig : r.config = config)
    (hsigner : r.writer.signer = signer) (free : r.writer.isReserved c.requestId = false)
    (registration : Registration) :
    w.HeadsFor (w.asked c registration)
      (r.afterResponse id c registration (w.respond c.request)).2 := by
  unfold Relay.afterResponse asked
  cases w.respond c.request with
  | ok response =>
    refine enter_heads fun l => ?_
    cases response.verify c.request registration.signer with
    | error e => exact .finished rfl
    | ok payload => exact enter_heads fun l' => startDrafting_heads w hconfig hsigner free
  | error e =>
    refine enter_heads fun l => ?_
    have hsame : (r.record c.requestId l.state).standInResponse c.request e.code =
        (idle config signer).standInResponse c.request e.code := by
      subst hsigner
      rfl
    simp only [hsame]
    cases (idle config signer).standInResponse c.request e.code with
    | error e => exact .finished rfl
    | ok response =>
      -- the verdict does not look at the deadline
      let late : Candidate :=
        { c with deadline := r.now + r.config.fallbackGraceMs.toNat, lifecycle := l }
      have h : w.HeadsFor (w.drafted late ⟨response, some e.code⟩ w.nonce)
          ((r.record c.requestId l.state).startDrafting id late ⟨response, some e.code⟩).2 :=
        startDrafting_heads w hconfig hsigner free
      exact h

theorem afterResimulation_heads (w : SteadyWorld config signer) (hconfig : r.config = config)
    (prepared : Prepared) :
    w.HeadsFor (w.priced c answer prepared) (r.afterResimulation id c answer prepared
      (w.simulate [prepared.write] c.op c.block)).2 := by
  subst hconfig
  unfold Relay.afterResimulation priced
  cases w.simulate [prepared.write] c.op c.block with
  | error e => exact .finished rfl
  | ok outcome =>
    simp only
    cases reprice (Word.ofUInt64 r.config.fees.flatFeeGas) c.requestId c.op
        (.ofSimulation prepared.write prepared.outcome) outcome with
    | error e => exact .finished rfl
    | ok fee =>
      simp only [Relay.systemAccount]
      cases Pair.create c.requestId prepared.write (c.op.withGas fee.estimate) fee.estimate
          r.config.systemAccount answer.fallback with
      | error e => exact .finished rfl
      | ok pair =>
        simp only [Candidate.entering]
        split
        · exact .finished rfl
        · cases c.lifecycle.advance .completed with
          | error e => exact .finished rfl
          | ok l => exact .finished rfl

/-- Nothing in the working sets is in the way of what a call does next. -/
def SteadyWorld.Admits (w : SteadyWorld config signer) (r : Relay) : Stage → Prop
  | .simulating op _ _ => ∀ key, w.key? op = some key → Table.contains r.active key = false
  | .asking c _ => r.writer.isReserved c.requestId = false
  | _ => True

theorem SteadyWorld.request?_eq {block : BlockContext} {outcome : Simulation}
    (latest : w.block = .ok block) (hsim : w.simulate [] op block = .ok outcome)
    {found? : Option ComputeRequest} (found : detect op outcome = .ok found?) :
    w.request? op = found? := by
  simp [request?, latest, hsim, found, Except.toOption]

/-- No pair has expired. -/
def Calm (r : Relay) : Prop := ∀ e ∈ r.pending, r.expired r.now e.2 = false

theorem intercept_eq_takeOn {outcome : Simulation} {request : ComputeRequest} {deadline : Nat}
    (calm : Calm r) (found : detect op outcome = .ok (some request)) :
    r.intercept id op outcome deadline = r.takeOn op request outcome.block deadline := by
  unfold Relay.intercept
  rw [found]
  simp only
  rw [if_neg]
  rw [Bool.not_eq_true, List.any_eq_false]
  intro e he hexpired
  cases (calm e he).symm.trans hexpired

theorem intercept_heads (w : SteadyWorld config signer) (id : CallId) {block : BlockContext}
    {outcome : Simulation} {deadline : Nat} (latest : w.block = .ok block)
    (hsim : w.simulate [] op block = .ok outcome) (calm : Calm r)
    (admits : w.Admits r (.simulating op block deadline)) :
    w.HeadsFor (w.simulated op block) (r.intercept id op outcome deadline).2 := by
  cases found : detect op outcome with
  | error e =>
    simp only [simulated, Relay.intercept, hsim, found]
    exact .finished rfl
  | ok found? =>
    cases found? with
    | none =>
      simp only [simulated, Relay.intercept, hsim, found]
      exact .finished rfl
    | some request =>
      have hkey : w.key? op = some request.requestId := by
        rw [key?, request?_eq latest hsim found, Option.map_some]
      rw [intercept_eq_takeOn calm found, Relay.takeOn, if_neg (by simp [admits _ hkey])]
      simp only [simulated, hsim, found]
      let c : Candidate := ⟨op, request, outcome.block, deadline, .start request.requestId⟩
      have h : w.HeadsFor (c.entering .resolving w.resolved)
          ((r.record c.requestId .detected).enter c .resolving fun r c =>
            (r, .waiting (.resolving c))).2 :=
        enter_heads fun l => .waiting rfl rfl
      exact h

theorem expects_answer {systemAccount : Address} {stage : Stage} {query : Query}
    (asks : stage.query? systemAccount = some query) : stage.expects (w.answer query) = true := by
  cases stage with
  | drafting c answer stage => cases stage <;> cases asks <;> rfl
  | _ => cases asks <;> rfl

/-- A call that works on its request heads for the same result after each answer that it gets. -/
theorem resumeReply_heads (w : SteadyWorld config signer) (id : CallId)
    (hconfig : r.config = config) (hsigner : r.writer.signer = signer) {stage : Stage}
    {query : Query} (past : 2 < stage.rank) (asks : stage.query? r.systemAccount = some query)
    (ahead : w.ahead? stage = some result) (admits : w.Admits r stage) :
    w.HeadsFor result (r.resumeReply id stage (w.answer query)).2 := by
  cases stage with
  | resolving c =>
    cases asks
    cases ahead
    simp only [answer, resolved]
    cases w.row c.request.account c.block with
    | error e => exact .finished rfl
    | ok row =>
      simp only [Relay.resumeReply]
      cases row.check c.request.account c.block with
      | error e => exact .finished rfl
      | ok registration => exact enter_heads fun l => .waiting rfl rfl
  | asking c registration =>
    cases asks
    cases ahead
    exact afterResponse_heads w hconfig hsigner admits registration
  | drafting c answer stage =>
    cases stage with
    | queued => cases asks
    | reading =>
      cases asks
      cases ahead
      let writer := { r.writer with lane := r.writer.lane.learn w.nonce }
      have hconfig' : writer.config = config := hconfig
      have hsigner' : writer.signer = signer := hsigner
      have h : w.HeadsFor (w.drafted c answer w.nonce) (r.afterDrafting id c answer
          (writer.withNonce id (c.draft answer) w.nonce)).2 :=
        withNonce_heads w hconfig' hsigner' w.nonce
      exact h
    | simulating write =>
      cases asks
      cases ahead
      exact simulated_heads w write
  | resimulating c answer prepared =>
    cases asks
    cases ahead
    exact afterResimulation_heads w hconfig prepared
  | readingBlock => simp [Stage.rank] at past
  | simulating => simp [Stage.rank] at past
  | clearing => simp [Stage.rank] at past
  | expiring => cases asks
  | dropping => cases asks
  | resyncing => cases asks

theorem resumeTurn_heads (w : SteadyWorld config signer) (id : CallId)
    (hconfig : r.config = config) (hsigner : r.writer.signer = signer) {stage : Stage}
    (ahead : w.ahead? stage = some result) :
    w.HeadsFor result (r.resumeTurn id stage).2 := by
  cases stage with
  | drafting c answer stage =>
    cases stage with
    | queued =>
      cases ahead
      exact takeTurn_heads w hconfig hsigner
    | reading => exact .waiting ahead rfl
    | simulating write => exact .waiting ahead rfl
  | clearing => cases ahead
  | expiring => cases ahead
  | dropping => cases ahead
  | resyncing => cases ahead
  | _ => exact .waiting ahead rfl

/-- Where a call waits that processes an operation. -/
inductive SteadyWorld.Processes (w : SteadyWorld config signer) (op : Operation) : Stage → Prop
  | reading (deadline : Nat) : Processes w op (.readingBlock op deadline)
  | simulating {block : BlockContext} (latest : w.block = .ok block) (deadline : Nat) :
      Processes w op (.simulating op block deadline)
  | working {stage : Stage} {request : ComputeRequest} {block : BlockContext}
      (found : w.request? op = some request) (works : stage.work? = some (op, request, block))
      (past : 2 < stage.rank) : Processes w op stage

/-- A call is on its way from an operation to the verdict on it. -/
structure SteadyWorld.OnWay (w : SteadyWorld config signer) (op : Operation) (stage : Stage) :
    Prop where
  heads : w.HeadsFor (w.verdict op) (.waiting stage)
  processes : w.Processes op stage

/-- A step takes a call further on its way. -/
structure SteadyWorld.Advances (w : SteadyWorld config signer) (op : Operation) (rank : Nat)
    (p : Progress) : Prop where
  heads : w.HeadsFor (w.verdict op) p
  later : ∀ stage, p.stage? = some stage → w.Processes op stage ∧ rank < stage.rank

namespace SteadyWorld

theorem verdict_of_latest {block : BlockContext} (latest : w.block = .ok block) (op : Operation) :
    w.verdict op = w.simulated op block := by
  rw [verdict, latest]

theorem Advances.finished {rank : Nat} (alike : result.blanked = (w.verdict op).blanked) :
    w.Advances op rank (.finished result) := by
  refine ⟨.finished alike, ?_⟩
  intro stage hstage
  cases hstage

theorem Advances.of_pursued {systemAccount : Address} {request : ComputeRequest}
    {block : BlockContext} {rank : Nat} {p : Progress} (heads : w.HeadsFor (w.verdict op) p)
    (found : w.request? op = some request) (past : 1 < rank)
    (h : Pursued systemAccount op request block rank p) : w.Advances op rank p := by
  refine ⟨heads, ?_⟩
  intro stage hstage
  cases h with
  | waiting works later =>
    cases hstage
    exact ⟨.working found works (by omega), later⟩
  | paired => cases hstage
  | rejected => cases hstage

theorem Advances.of_later {rank rank' : Nat} {p : Progress} (h : w.Advances op rank' p)
    (later : rank ≤ rank') : w.Advances op rank p := by
  refine ⟨h.heads, ?_⟩
  intro stage hstage
  obtain ⟨hprocesses, hrank⟩ := h.later stage hstage
  exact ⟨hprocesses, by omega⟩

theorem intercept_advances {block : BlockContext} {outcome : Simulation} {deadline : Nat}
    (latest : w.block = .ok block) (hsim : w.simulate [] op block = .ok outcome) (calm : Calm r)
    (admits : w.Admits r (.simulating op block deadline)) :
    w.Advances op 1 (r.intercept id op outcome deadline).2 := by
  have heads := intercept_heads w id latest hsim calm admits
  rw [← verdict_of_latest latest] at heads
  cases found : detect op outcome with
  | error e =>
    rw [Relay.intercept, found] at heads ⊢
    cases heads with
    | finished alike => exact .finished alike
  | ok found? =>
    cases found? with
    | none =>
      rw [Relay.intercept, found] at heads ⊢
      cases heads with
      | finished alike => exact .finished alike
    | some request =>
      rw [intercept_eq_takeOn calm found] at heads ⊢
      have hpursued : Pursued r.systemAccount op request outcome.block 2
          (r.takeOn op request outcome.block deadline).2 :=
        takeOn_pursued r deadline (Nat.lt_succ_self 2)
      have hadvances : w.Advances op 2 (r.takeOn op request outcome.block deadline).2 :=
        .of_pursued heads (request?_eq latest hsim found) (Nat.lt_succ_self 1) hpursued
      exact hadvances.of_later (Nat.le_succ 1)

end SteadyWorld

/-- An answer of the world takes a call further on its way. -/
theorem reply_advances (id : CallId) {log : List Event} {stage : Stage} {query : Query}
    (hconfig : r.config = config) (hsigner : r.writer.signer = signer)
    (hb : stage.Backed r.config r.writer.signer id log) (onWay : w.OnWay op stage)
    (asks : stage.query? r.systemAccount = some query) (calm : Calm r)
    (admits : w.Admits r stage) :
    w.Advances op stage.rank (r.resumeReply id stage (w.answer query)).2 := by
  obtain ⟨heads, processes⟩ := onWay
  cases processes with
  | reading deadline =>
    cases asks
    simp only [answer, Relay.resumeReply]
    cases latest : w.block with
    | error e =>
      refine .finished ?_
      rw [verdict, latest]
    | ok block =>
      refine ⟨.waiting rfl ?_, ?_⟩
      · rw [verdict_of_latest latest]
      · intro stage' hstage
        cases hstage
        exact ⟨.simulating latest deadline, Nat.zero_lt_one⟩
  | @simulating block latest deadline =>
    cases asks
    simp only [answer]
    cases hsim : w.simulate [] op block with
    | error e =>
      refine .finished ?_
      rw [verdict_of_latest latest, simulated, hsim]
    | ok outcome => exact intercept_advances latest hsim calm admits
  | working found works past =>
    cases heads with
    | waiting ahead alike =>
      have hheads := resumeReply_heads w id hconfig hsigner past asks ahead admits
      rcases (Resumed.reply (expects_answer asks)).pursued works hb with ⟨hturn, -⟩ | hpursued
      · cases hturn
      · exact .of_pursued (hheads.congr alike) found (by omega) hpursued

/-- A call in line that gets its turn goes further; any other stays as it is. -/
theorem turn_advances {log : List Event} {stage : Stage} (hconfig : r.config = config)
    (hsigner : r.writer.signer = signer) (hb : stage.Backed r.config r.writer.signer id log)
    (onWay : w.OnWay op stage) (first : r.writer.lane.isHeldBy id = true) :
    r.resumeTurn id stage = (r, .waiting stage) ∨
      w.Advances op stage.rank (r.resumeTurn id stage).2 := by
  obtain ⟨heads, processes⟩ := onWay
  cases processes with
  | reading deadline => exact .inl rfl
  | simulating latest deadline => exact .inl rfl
  | working found works past =>
    cases heads with
    | waiting ahead alike =>
      have hheads := resumeTurn_heads w id hconfig hsigner ahead
      rcases (Resumed.turn first).pursued works hb with ⟨-, hsame⟩ | hpursued
      · exact .inl hsame
      · exact .inr (.of_pursued (hheads.congr alike) found (by omega) hpursued)

/-- A call on its way that asks for nothing stands in line for the lane. -/
theorem queued_of_unasked {stage : Stage} (processes : w.Processes op stage)
    (unasked : stage.query? r.systemAccount = none) :
    ∃ c answer, stage = .drafting c answer .queued := by
  cases processes with
  | reading => cases unasked
  | simulating => cases unasked
  | working found works past =>
    cases stage with
    | drafting c answer stage =>
      cases stage with
      | queued => exact ⟨c, answer, rfl⟩
      | reading => cases unasked
      | simulating => cases unasked
    | clearing => simp [Stage.rank] at past
    | expiring => cases works
    | dropping => cases works
    | resyncing => cases works
    | _ => cases unasked

/-- The first in line goes further when it gets its turn. -/
theorem queued_advances {log : List Event} (hconfig : r.config = config)
    (hsigner : r.writer.signer = signer)
    (hb : (Stage.drafting c answer .queued).Backed r.config r.writer.signer id log)
    (onWay : w.OnWay op (.drafting c answer .queued))
    (first : r.writer.lane.isHeldBy id = true) :
    w.Advances op 5 (r.resumeTurn id (.drafting c answer .queued)).2 := by
  rcases turn_advances hconfig hsigner hb onWay first with hsame | hadvances
  · have hpursued : Pursued r.systemAccount c.op c.request c.block 5
        (r.resumeTurn id (.drafting c answer .queued)).2 :=
      afterDrafting_pursued (takeTurn_later first _) hb.2.1.stands
    rw [hsame] at hpursued
    cases hpursued with
    | waiting works later => cases Nat.lt_irrefl _ later
  · exact hadvances

end ComputeRelay
