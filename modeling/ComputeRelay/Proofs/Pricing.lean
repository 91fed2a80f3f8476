import ComputeRelay.Proofs.Answerable
import ComputeRelay.Proofs.Turnover

/-! What a pair costs the operation that it serves. The gas that an operation is paired with follows
from what its call was told, when it had the write simulated and then the operation behind it; and
as long as the pair is pending, nothing but the signature of the operation changes. -/

namespace ComputeRelay

open Relay

namespace Relay

/-- What a call has asked and been told after an event, from what it was told before. -/
def note (r : Relay) (id : CallId) (log : List (Query × Reply)) (e : Event) :
    List (Query × Reply) :=
  if r.addressee? e = some id then
    match e with
    | .start _ _ => []
    | .reply _ reply =>
      match (Table.get? r.calls id).bind (·.query? r.systemAccount) with
      | some query => log ++ [(query, reply)]
      | none => log
    | _ => log
  else log

def answersFrom (id : CallId) : Relay → List (Query × Reply) → List Event → List (Query × Reply)
  | _, log, [] => log
  | r, log, e :: es => answersFrom id (r.step e).1 (r.note id log e) es

/-- What a call has asked since it last began, with the replies. -/
def answers (r : Relay) (es : List Event) (id : CallId) : List (Query × Reply) :=
  answersFrom id r [] es

theorem answersFrom_concat (id : CallId) (r : Relay) (log : List (Query × Reply)) (es : List Event)
    (e : Event) :
    answersFrom id r log (es ++ [e]) = (r.after es).note id (answersFrom id r log es) e := by
  induction es generalizing r log with
  | nil => rfl
  | cons e' es ih => exact ih (r.step e').1 (r.note id log e')

theorem answers_concat (r : Relay) (es : List Event) (e : Event) (id : CallId) :
    r.answers (es ++ [e]) id = (r.after es).note id (r.answers es id) e :=
  answersFrom_concat id r [] es e

end Relay

variable {r : Relay} {e : Event} {id : CallId} {c c' : Candidate} {answer answer' : Answer}
  {prepared : Prepared}

theorem note_reply {stage : Stage} {query : Query} {reply : Reply}
    (hs : Table.get? r.calls id = some stage) (hq : stage.query? r.systemAccount = some query)
    (ha : r.addressee? (.reply id reply) = some id) (log : List (Query × Reply)) :
    r.note id log (.reply id reply) = log ++ [(query, reply)] := by
  simp [note, ha, hs, hq]

theorem mem_note {stage : Stage} {log : List (Query × Reply)} {p : Query × Reply} (hp : p ∈ log)
    (hs : Table.get? r.calls id = some stage) : p ∈ r.note id log e := by
  unfold note
  split
  · rename_i ha
    cases e with
    | start id' job =>
      by_cases hid : id' = id
      · subst hid
        simp [addressee?, Table.contains, hs] at ha
      · simp [addressee?, hid] at ha
    | reply id' reply =>
      simp only
      split
      · exact List.mem_append_left _ hp
      · exact hp
    | _ => exact hp
  · exact hp

theorem withNonce_unprepared (w : CacheWriter) (id : CallId) (d : Draft) (nonce : Word) :
    ∀ p, (w.withNonce id d nonce).2 ≠ .prepared p := by
  unfold CacheWriter.withNonce
  split <;> rintro p ⟨⟩

theorem takeTurn_unprepared (w : CacheWriter) (id : CallId) (d : Draft) :
    ∀ p, (w.takeTurn id d).2 ≠ .prepared p := by
  unfold CacheWriter.takeTurn
  split
  · rintro p ⟨⟩
  · rintro p ⟨⟩
  · exact withNonce_unprepared w id d _

theorem start_unprepared (w : CacheWriter) (id : CallId) (d : Draft) :
    ∀ p, (w.start id d).2 ≠ .prepared p := by
  unfold CacheWriter.start
  split
  · rintro p ⟨⟩
  · exact takeTurn_unprepared _ id d

theorem nonceRead_unprepared (w : CacheWriter) (id : CallId) (d : Draft)
    (reply : Except LedgerError Word) : ∀ p, (w.nonceRead id d reply).2 ≠ .prepared p := by
  cases reply with
  | error err => rintro p ⟨⟩
  | ok nonce => exact withNonce_unprepared _ id d nonce

theorem prepared_of_simulated {w : CacheWriter} {d : Draft} {write : Operation}
    {reply : Except LedgerError Simulation} {p : Prepared}
    (h : (w.simulated id d write reply).2 = .prepared p) :
    p.write = write ∧ reply = .ok p.outcome := by
  unfold CacheWriter.simulated at h
  split at h
  · cases h
  · split at h
    · cases h
    · rw [← DraftResult.prepared.inj h]
      exact ⟨rfl, rfl⟩

theorem waiting_of_enter {state : RequestState} {go : Relay → Candidate → Relay × Progress}
    {stage : Stage} (h : (r.enter c state go).2 = .waiting stage) :
    ∃ r' l, (go r' { c with lifecycle := l }).2 = .waiting stage := by
  unfold Relay.enter at h
  split at h
  · cases h
  · exact ⟨_, _, h⟩

theorem prepared_of_afterDrafting {step : CacheWriter × DraftResult}
    (h : (r.afterDrafting id c answer step).2 = .waiting (.resimulating c' answer' prepared)) :
    step.2 = .prepared prepared ∧ ∃ l, c' = { c with lifecycle := l } := by
  obtain ⟨w, result⟩ := step
  unfold Relay.afterDrafting at h
  cases result with
  | waiting stage => cases h
  | failed err => cases h
  | prepared p =>
    simp only at h
    split at h
    · cases h
      exact ⟨rfl, c.lifecycle, rfl⟩
    · split at h
      · cases h
      · cases h
        exact ⟨rfl, _, rfl⟩

theorem startDrafting_unprepared (r : Relay) (id : CallId) (c : Candidate) (answer : Answer) :
    (r.startDrafting id c answer).2 ≠ .waiting (.resimulating c' answer' prepared) :=
  fun h => start_unprepared r.writer id (c.draft answer) _ (prepared_of_afterDrafting h).1

theorem afterResponse_unprepared (r : Relay) (id : CallId) (c : Candidate)
    (registration : Registration) (reply : Except ServiceError ComputeResponse) :
    (r.afterResponse id c registration reply).2 ≠
      .waiting (.resimulating c' answer' prepared) := by
  intro h
  cases reply with
  | ok response =>
    simp only [Relay.afterResponse] at h
    obtain ⟨r₁, l₁, h₁⟩ := waiting_of_enter h
    simp only at h₁
    split at h₁
    · cases h₁
    · obtain ⟨r₂, l₂, h₂⟩ := waiting_of_enter h₁
      exact startDrafting_unprepared _ id _ _ h₂
  | error err =>
    simp only [Relay.afterResponse] at h
    obtain ⟨r₁, l₁, h₁⟩ := waiting_of_enter h
    split at h₁
    · cases h₁
    · exact startDrafting_unprepared _ id _ _ h₁

theorem asking_unprepared {registration : Registration} {step : Relay × Progress}
    (h : Resumed r id (.asking c registration) e step) :
    step.2 ≠ .waiting (.resimulating c' answer' prepared) := by
  cases h with
  | turn => rintro ⟨⟩
  | @reply reply expected =>
    cases reply with
    | response reply => exact afterResponse_unprepared r id c registration reply
    | _ => cases expected
  | timeout => exact afterResponse_unprepared r id c registration (.error .timeout)

theorem drafting_prepares {draft : Drafting} {step : Relay × Progress}
    (h : Resumed r id (.drafting c answer draft) e step)
    (hstep : step.2 = .waiting (.resimulating c' answer' prepared)) :
    draft = .simulating prepared.write ∧ (∃ l, c' = { c with lifecycle := l }) ∧
      e = .reply id (.simulation (.ok prepared.outcome)) := by
  cases h with
  | turn =>
    cases draft with
    | queued =>
      exact absurd (prepared_of_afterDrafting hstep).1
        (takeTurn_unprepared r.writer id (c.draft answer) prepared)
    | _ => cases hstep
  | @reply reply expected =>
    cases draft with
    | queued => cases expected
    | reading =>
      cases reply with
      | nonce reply =>
        exact absurd (prepared_of_afterDrafting hstep).1
          (nonceRead_unprepared r.writer id (c.draft answer) reply prepared)
      | _ => cases expected
    | simulating write =>
      cases reply with
      | simulation reply =>
        obtain ⟨hprepared, hc⟩ := prepared_of_afterDrafting hstep
        obtain ⟨hwrite, hreply⟩ := prepared_of_simulated hprepared
        rw [hwrite, hreply]
        exact ⟨rfl, hc, rfl⟩
      | _ => cases expected
  | timeout => cases hstep

/-- A call comes to the resimulation of its operation from the simulation of its write, or has been
there before. -/
theorem Resumed.prepares {stage : Stage} {step : Relay × Progress} (h : Resumed r id stage e step)
    (hstep : step.2 = .waiting (.resimulating c answer prepared)) :
    stage = .resimulating c answer prepared ∨
      ∃ c' answer' l, stage = .drafting c' answer' (.simulating prepared.write) ∧
        c = { c' with lifecycle := l } ∧ e = .reply id (.simulation (.ok prepared.outcome)) := by
  have hcourse := h.goes.course
  rw [hstep] at hcourse
  cases hcourse with
  | unmoved => exact .inl rfl
  | simulated taken =>
    cases taken with
    | takenOn taken => cases taken
  | cleared taken => cases taken
  | answered => exact absurd hstep (asking_unprepared h)
  | stoodIn => exact absurd hstep (asking_unprepared h)
  | drafted =>
    obtain ⟨rfl, ⟨l, hc⟩, he⟩ := drafting_prepares h hstep
    exact .inr ⟨_, _, l, rfl, hc, he⟩
  | upkeep before after => cases after

theorem begin_unprepared (r : Relay) (id : CallId) (job : Job) :
    (r.begin id job).2 ≠ .waiting (.resimulating c answer prepared) := by
  intro hstep
  cases hjob : job.isRequest with
  | true =>
    have hcourse := (begin_request_goes hjob r id).course
    rw [hstep] at hcourse
    cases hcourse with
    | intercepted taken =>
      cases taken with
      | takenOn taken => cases taken
  | false =>
    have hcourse := (begin_upkeep_goes hjob r id).course
    rw [hstep] at hcourse
    cases hcourse

theorem run_answers {config : Config} {signer : Signer} (es : List Event)
    (hs : Table.get? ((idle config signer).after es).calls id =
      some (.resimulating c answer prepared)) :
    (Query.simulate [] prepared.write c.block, Reply.simulation (.ok prepared.outcome)) ∈
      (idle config signer).answers es id := by
  induction es using List.reverseRecOn generalizing c answer prepared with
  | nil => cases hs
  | append_singleton es e ih =>
    rw [after_concat] at hs
    rw [answers_concat]
    -- the last event has brought the call here, or was addressed to another one
    by_cases ha : ((idle config signer).after es).addressee? e = some id
    · have h := step_addressed ha
      generalize ((idle config signer).after es).step e = out at h hs
      cases h with
      | started job unused =>
        rw [get?_settle, if_pos rfl] at hs
        exact absurd (Progress.stage?_eq_some.mp hs) (begin_unprepared _ id job)
      | resumed found resumed =>
        rw [get?_settle, if_pos rfl] at hs
        rcases resumed.prepares (Progress.stage?_eq_some.mp hs) with
          rfl | ⟨c', answer', l, rfl, rfl, rfl⟩
        · exact mem_note (ih found) found
        · rw [note_reply found rfl ha]
          exact List.mem_append_right _ (List.mem_singleton_self _)
      | abandoned =>
        rw [Table.get?_erase, if_pos rfl] at hs
        cases hs
    · rw [step_calls_of_ne ha] at hs
      exact mem_note (ih hs) hs

/-- No addition wraps. -/
theorem reprice_spec {flatFee : Word} {key : Hash} {served : Operation} {cost : WriteCost}
    {resimulated : Simulation} {fee : FeeAdjustment}
    (h : reprice flatFee key served cost resimulated = .ok fee) :
    fee.estimate.preVerificationGas.toNat = served.preVerificationGas.toNat +
        (cost.verificationGas.toNat + cost.callGas.toNat + cost.preVerificationGas.toNat +
          flatFee.toNat) ∧
      fee.estimate.verificationGasLimit.toNat =
        Max.max served.verificationGasLimit.toNat resimulated.verificationGas.toNat ∧
      fee.estimate.callGasLimit.toNat =
        Max.max served.callGasLimit.toNat resimulated.callGas.toNat := by
  obtain ⟨-, covers⟩ := reprice_eq_ok_iff.mp h
  refine ⟨?_, covers.verificationGasLimit, covers.callGasLimit⟩
  rw [covers.preVerificationGas, Operation.dueGas]
  omega

/-- A pair as its call finished it in a run: the call had begun with the operation, and was told how
the write simulates and how the operation simulates behind it. -/
structure Priced (config : Config) (signer : Signer) (es : List Event) (pair : Pair) (id : CallId)
    (op : Operation) (block : BlockContext) (written resimulated : Simulation) : Prop where
  began : Event.start id (.process op) ∈ (idle config signer).heard es id ∨
    ∃ outcome, Event.start id (.processSimulated op outcome) ∈ (idle config signer).heard es id
  wrote : (Query.simulate [] pair.write block, Reply.simulation (.ok written)) ∈
    (idle config signer).answers es id
  repriced : (Query.simulate [pair.write] op block, Reply.simulation (.ok resimulated)) ∈
    (idle config signer).answers es id
  served : pair.served = op.withGas pair.estimate
  preVerificationGas : pair.estimate.preVerificationGas.toNat = op.preVerificationGas.toNat +
    (written.verificationGas.toNat + written.callGas.toNat +
      config.writeGas.preVerificationGas.toNat + config.fees.flatFeeGas.toNat)
  verificationGasLimit : pair.estimate.verificationGasLimit.toNat =
    Max.max op.verificationGasLimit.toNat resimulated.verificationGas.toNat
  callGasLimit : pair.estimate.callGasLimit.toNat =
    Max.max op.callGasLimit.toNat resimulated.callGas.toNat

theorem Detected.began {log : List Event} {op : Operation} {request : ComputeRequest}
    {block : BlockContext} (h : Detected id log op request block) :
    Event.start id (.process op) ∈ log ∨
      ∃ outcome, Event.start id (.processSimulated op outcome) ∈ log := by
  cases h with
  | given found at_block began => exact .inr ⟨_, began⟩
  | simulated found at_block began => exact .inl began

variable {config : Config} {signer : Signer} {es : List Event} {pair : Pair} {fee : FeeAdjustment}
  {l : Lifecycle}

theorem paired_priced
    (hresult : (((idle config signer).after es).step e).2 = some (.paired pair fee l)) :
    ∃ id op block written resimulated,
      Priced config signer (es ++ [e]) pair id op block written resimulated := by
  obtain ⟨hconfig, hsigner, hbacked⟩ := run_backed config signer es
  have hturn := step_turnover ((idle config signer).after es) e
  rw [hresult] at hturn
  obtain ⟨⟨id, c, answer, prepared, outcome, hfound, rfl, hpriced, hcreated⟩, -⟩ := hturn.finishes
  obtain ⟨hdetected, -, nonce, hbuild⟩ := hbacked id _ hfound
  have haddressed : ((idle config signer).after es).addressee?
      (.reply id (.simulation (.ok outcome))) = some id := addressee_reply hfound rfl
  have hheard : (idle config signer).heard es id ⊆
      (idle config signer).heard (es ++ [.reply id (.simulation (.ok outcome))]) id := by
    rw [(heard_concat _ es _ id).trans (if_pos haddressed)]
    exact List.subset_append_left _ _
  have hwrote := run_answers es hfound
  obtain ⟨hgas, hverification, hcall⟩ := reprice_spec hpriced
  have hwriteGas := (CacheWriter.build_spec hbuild).gas
  obtain ⟨-, -, rfl⟩ := Pair.create_eq_ok_iff.mp hcreated
  refine ⟨id, c.op, c.block, prepared.outcome, outcome, (hdetected.mono hheard).began, ?_, ?_, rfl,
    ?_, hverification, hcall⟩
  · rw [answers_concat]
    exact mem_note hwrote hfound
  · rw [answers_concat, note_reply hfound rfl haddressed]
    exact List.mem_append_right _ (List.mem_singleton_self _)
  · rw [hgas, hconfig]
    simp [WriteCost.ofSimulation, hwriteGas, Word.toNat_ofUInt64]

/-- The signature is one that the relay accepted for the request's pair in the course of `more`. -/
def SignedIn (r : Relay) (more : List Event) (requestId : Hash) (signature : Bytes) : Prop :=
  ∃ es signed order rest bound, more = es ++ .attach signed order :: rest ∧
    ((r.after es).attach signed order).2 = .ok bound ∧ bound.requestId = requestId ∧
    signed.signature = signature

/-- A pending pair is the one finished last before `more`, but for its operation's signature. -/
structure Lineage (config : Config) (signer : Signer) (before more : List Event) (pair : Pair)
    (entry : Hash × PendingPair) : Prop where
  finished : ∃ es e fee l, before = es ++ [e] ∧
    (((idle config signer).after es).step e).2 = some (.paired pair fee l)
  key : entry.1 = pair.requestId
  pending : Throughout (fun r _ => entry.1 ∈ Table.keys r.pending)
    ((idle config signer).after before) more
  same : entry.2.pair = { pair with
    served := { pair.served with signature := entry.2.pair.served.signature } }
  signature : entry.2.pair.served.signature = pair.served.signature ∨
    SignedIn ((idle config signer).after before) more pair.requestId
      entry.2.pair.served.signature

theorem withSigned_same {old bound : Pair} {signature : Bytes} {op signed : Operation}
    (hold : old = { pair with served := { pair.served with signature } })
    (hserved : pair.served = op.withGas pair.estimate)
    (accepted : old.withSigned signed = .ok bound) :
    bound = { pair with served := { pair.served with signature := bound.served.signature } } ∧
      bound.served.signature = signed.signature := by
  obtain ⟨hbound, hsigned⟩ := Pair.withSigned_spec accepted
  subst hold
  refine ⟨?_, by rw [hbound]⟩
  rw [hbound]
  simp only
  rw [hsigned, hserved]
  rfl

variable {before more : List Event} {entry : Hash × PendingPair}

theorem SignedIn.concat {key : Hash} {signature : Bytes} (h : SignedIn r more key signature)
    (e : Event) : SignedIn r (more ++ [e]) key signature := by
  obtain ⟨es, signed, order, rest, bound, rfl, haccept, hid, hsignature⟩ := h
  exact ⟨es, signed, order, rest ++ [e], bound, by simp, haccept, hid, hsignature⟩

theorem Lineage.keep (h : Lineage config signer before more pair entry) (e : Event)
    (hin : entry ∈ ((idle config signer).after (before ++ more)).pending) :
    Lineage config signer before (more ++ [e]) pair entry := by
  rw [after_append] at hin
  refine ⟨h.finished, h.key, throughout_concat.mpr ⟨h.pending, List.mem_map_of_mem hin⟩, h.same, ?_⟩
  exact h.signature.imp_right fun hs => hs.concat e

theorem Lineage.attach {key : Hash} {old : PendingPair} {signed : Operation} {order : List Hash}
    {bound : Pair} (h : Lineage config signer before more pair (key, old))
    (hin : (key, old) ∈ ((idle config signer).after (before ++ more)).pending)
    (accepted : old.pair.withSigned signed = .ok bound)
    (hbound : (((idle config signer).after (before ++ more)).attach signed order).2 = .ok bound)
    {entry' : PendingPair} (hentry : entry'.pair = bound) :
    Lineage config signer before (more ++ [.attach signed order]) pair (key, entry') := by
  obtain ⟨es, e, fee, l, hbefore, hresult⟩ := h.finished
  obtain ⟨id, op, block, written, resimulated, hpriced⟩ := paired_priced hresult
  obtain ⟨hsame, hsignature⟩ := withSigned_same h.same hpriced.served accepted
  rw [after_append] at hin hbound
  refine ⟨h.finished, h.key, throughout_concat.mpr ⟨h.pending, List.mem_map.mpr ⟨_, hin, rfl⟩⟩,
    ?_, ?_⟩
  · simp only
    rw [hentry]
    exact hsame
  · refine .inr ⟨more, signed, order, [], bound, rfl, hbound, ?_, ?_⟩
    · rw [hsame]
    · simp only
      rw [hentry, hsignature]

theorem run_lineage (es : List Event) :
    ∀ entry ∈ ((idle config signer).after es).pending, ∃ before more pair,
      es = before ++ more ∧ Lineage config signer before more pair entry := by
  induction es using List.reverseRecOn with
  | nil => rintro entry ⟨⟩
  | append_singleton es e ih =>
    intro entry hin
    rw [after_concat] at hin
    have hturn := step_turnover ((idle config signer).after es) e
    rcases hturn.mem_cases hin with hold |
      ⟨signed, order, old, bound, rfl, hold, accepted, hbound, hentry⟩ |
      ⟨pair, fee, l, hresult, rfl⟩
    · obtain ⟨before, more, pair, rfl, h⟩ := ih entry hold
      exact ⟨before, more ++ [e], pair, by rw [List.append_assoc], h.keep e hold⟩
    · obtain ⟨before, more, pair, rfl, h⟩ := ih _ hold
      exact ⟨before, more ++ [.attach signed order], pair, by rw [List.append_assoc],
        h.attach hold accepted hbound hentry⟩
    · exact ⟨es ++ [e], [], pair, by simp,
        ⟨es, e, fee, l, rfl, hresult⟩, rfl, trivial, rfl, .inl rfl⟩

/-- A request stays pending with an event, and no other pair takes its place. -/
def Stays (requestId : Hash) (r : Relay) (e : Event) : Prop :=
  requestId ∈ Table.keys (r.step e).1.pending ∧
    ∀ pair fee l, (r.step e).2 = some (.paired pair fee l) → pair.requestId ≠ requestId

theorem stored_of_paired
    (hresult : (((idle config signer).after es).step e).2 = some (.paired pair fee l)) :
    ∃ entry ∈ ((idle config signer).after (es ++ [e])).pending,
      Lineage config signer (es ++ [e]) [] pair entry := by
  have hturn := step_turnover ((idle config signer).after es) e
  rw [hresult] at hturn
  have hstock := hturn.finishes.2
  have hpending : ((idle config signer).after (es ++ [e])).pending =
      Table.insert ((idle config signer).after es).pending pair.requestId
        ⟨pair, ((idle config signer).after es).now⟩ := by
    rw [after_concat]
    exact congrArg Stock.pending hstock
  refine ⟨(pair.requestId, ⟨pair, ((idle config signer).after es).now⟩), ?_,
    ⟨es, e, fee, l, rfl, hresult⟩, rfl, trivial, rfl, .inl rfl⟩
  rw [hpending]
  exact Table.mem_of_get? (by simp [Table.get?_insert])

theorem lineage_of_stays
    (hresult : (((idle config signer).after es).step e).2 = some (.paired pair fee l))
    (hstays : Throughout (Stays pair.requestId) ((idle config signer).after (es ++ [e])) more) :
    ∃ entry ∈ ((idle config signer).after (es ++ [e] ++ more)).pending,
      Lineage config signer (es ++ [e]) more pair entry := by
  induction more using List.reverseRecOn with
  | nil =>
    rw [List.append_nil]
    exact stored_of_paired hresult
  | append_singleton more e' ih =>
    obtain ⟨hmore, hin, hother⟩ := throughout_concat.mp hstays
    obtain ⟨⟨key, entry⟩, hentry, h⟩ := ih hmore
    obtain rfl : key = pair.requestId := h.key
    rw [← after_append] at hin hother
    have hkeys := run_nodup_keys config signer (es ++ [e] ++ more)
    rw [← List.append_assoc, after_concat]
    obtain ⟨⟨_, entry'⟩, hin', rfl⟩ := List.mem_map.mp hin
    refine ⟨_, hin', ?_⟩
    -- the keys are pairwise different, so this is the pair that was followed so far
    have hsame : ∀ {old}, (pair.requestId, old) ∈
        ((idle config signer).after (es ++ [e] ++ more)).pending → old = entry := by
      intro old hold
      have hget := Table.get?_of_mem hkeys hentry
      exact Option.some.inj ((Table.get?_of_mem hkeys hold).symm.trans hget)
    have hturn := step_turnover ((idle config signer).after (es ++ [e] ++ more)) e'
    rcases hturn.mem_cases hin' with hold |
      ⟨signed, order, old, bound, rfl, hold, accepted, hbound, hnew⟩ |
      ⟨p, fee', l', hresult', hnew⟩
    · obtain rfl := hsame hold
      exact h.keep e' hold
    · obtain rfl := hsame hold
      exact h.attach hold accepted hbound hnew
    · exact absurd (congrArg Prod.fst hnew).symm (hother p fee' l' hresult')

/-- A pair is priced by the two simulations that its call was told of. As long as it is pending it
stays as it was finished, but for a signature that the relay accepted for it since; and every
pending pair is such a one. -/
theorem pairs_priced (config : Config) (signer : Signer) (es : List Event) :
    (∀ e pair fee l, (((idle config signer).after es).step e).2 = some (.paired pair fee l) →
      (∃ id op block written resimulated,
        Priced config signer (es ++ [e]) pair id op block written resimulated) ∧
      ∀ more, Throughout (Stays pair.requestId) ((idle config signer).after (es ++ [e])) more →
        ∃ entry ∈ ((idle config signer).after (es ++ [e] ++ more)).pending,
          Lineage config signer (es ++ [e]) more pair entry) ∧
    ∀ entry ∈ ((idle config signer).after es).pending, ∃ before more pair,
      es = before ++ more ∧ Lineage config signer before more pair entry := by
  refine ⟨?_, run_lineage es⟩
  intro e pair fee l hresult
  exact ⟨paired_priced hresult, fun more hstays => lineage_of_stays hresult hstays⟩

/-- The pair of a request that is answered well is pending and priced. -/
theorem pairs_priced_first :
    ∃ before more pair, Sample.first.served "a" 0 = before ++ more ∧
      (∃ entry ∈ ((idle Sample.config Sample.signer).after (Sample.first.served "a" 0)).pending,
        Lineage Sample.config Sample.signer before more pair entry) ∧
      ∃ id op block written resimulated,
        Priced Sample.config Sample.signer before pair id op block written resimulated := by
  obtain ⟨pair, -, hserved⟩ := Sample.first_paired
  have hpending : (Sample.firstKey, ⟨pair, 0⟩) ∈
      ((idle Sample.config Sample.signer).after (Sample.first.served "a" 0)).pending := by
    rw [hserved]
    exact List.mem_singleton_self _
  obtain ⟨before, more, pair', hes, h⟩ :=
    (pairs_priced Sample.config Sample.signer (Sample.first.served "a" 0)).2 _ hpending
  obtain ⟨es, e, fee, l, rfl, hresult⟩ := h.finished
  have hpriced := ((pairs_priced Sample.config Sample.signer es).1 e pair' fee l hresult).1
  exact ⟨es ++ [e], more, pair', hes, ⟨_, hpending, h⟩, hpriced⟩

end ComputeRelay
