import ComputeRelay.Proofs.Steps

/-! The work on a request that was found. Each event that a call waits for takes the work further,
or ends it: with a pair whose request has passed through the states it should, or for a reason that
a request can have. -/

namespace ComputeRelay

open Relay

/-- What a request whose operation is `op` can be rejected for once it is found. -/
def Rejection.Proper (systemAccount : Address) (op : Operation) : Rejection → Prop
  | .marker _ => False
  | .lifecycle _ => False
  | .attach _ => False
  | .order _ => op.sender = systemAccount
  | _ => True

inductive Passed : Option ErrorCode → List RequestState → Prop
  | completed : Passed none
      [.detected, .resolving, .requesting, .verifying, .populating, .reestimating, .completed]
  | failed (e : ServiceError) :
      Passed (some e.code) [.detected, .resolving, .requesting, .failed e.reason]

/-- What a call works on once its request is found. -/
def Stage.work? : Stage → Option (Operation × ComputeRequest × BlockContext)
  | .clearing _ op request block _ => some (op, request, block)
  | .resolving c => some (c.op, c.request, c.block)
  | .asking c _ => some (c.op, c.request, c.block)
  | .drafting c _ _ => some (c.op, c.request, c.block)
  | .resimulating c _ _ => some (c.op, c.request, c.block)
  | _ => none

def Drafting.rank : Drafting → Nat
  | .queued => 5
  | .reading => 6
  | .simulating _ => 7

/-- How far a call has got. -/
def Stage.rank : Stage → Nat
  | .readingBlock _ _ => 0
  | .simulating _ _ _ => 1
  | .clearing _ _ _ _ _ => 2
  | .resolving _ => 3
  | .asking _ _ => 4
  | .drafting _ _ stage => stage.rank
  | .resimulating _ _ _ => 8
  | .expiring _ => 0
  | .dropping _ => 0
  | .resyncing _ => 1

/-- A step takes the work on a request further. -/
inductive Pursued (systemAccount : Address) (op : Operation) (request : ComputeRequest)
    (block : BlockContext) (rank : Nat) : Progress → Prop
  | waiting {stage : Stage} (works : stage.work? = some (op, request, block))
      (later : rank < stage.rank) : Pursued systemAccount op request block rank (.waiting stage)
  | paired {pair : Pair} {fee : FeeAdjustment} {l : Lifecycle}
      (passed : Passed pair.fallback l.history) :
      Pursued systemAccount op request block rank (.finished (.paired pair fee l))
  | rejected {e : Rejection} (proper : e.Proper systemAccount op) :
      Pursued systemAccount op request block rank (rejected e)

variable {r : Relay} {id : CallId} {c : Candidate} {answer : Answer} {systemAccount : Address}
  {op : Operation} {request : ComputeRequest} {block : BlockContext} {rank : Nat}

def DraftResult.Later (rank : Nat) : DraftResult → Prop
  | .waiting stage => rank < stage.rank
  | _ => rank < 8

theorem withNonce_later (w : CacheWriter) (id : CallId) (d : Draft) (nonce : Word) (h : rank < 7) :
    (w.withNonce id d nonce).2.Later rank := by
  unfold CacheWriter.withNonce
  cases w.build d.served d.requestId d.response nonce with
  | error e => exact h.trans (by omega)
  | ok write => exact h

theorem takeTurn_later {w : CacheWriter} (first : w.lane.isHeldBy id = true) (d : Draft) :
    (w.takeTurn id d).2.Later 5 := by
  unfold CacheWriter.takeTurn
  cases hs : w.lane.standing id with
  | waiting =>
    unfold Lane.standing at hs
    rw [if_pos first] at hs
    split at hs <;> cases hs
  | reading => exact Nat.lt_succ_self 5
  | granted nonce => exact withNonce_later w id d nonce (by omega)

theorem start_later (w : CacheWriter) (id : CallId) (d : Draft) :
    (w.start id d).2.Later 4 := by
  unfold CacheWriter.start
  split
  · exact (by omega : 4 < 8)
  · unfold CacheWriter.takeTurn
    split
    · exact Nat.lt_succ_self 4
    · exact (by omega : 4 < 6)
    · exact withNonce_later _ id d _ (by omega)

theorem nonceRead_later (w : CacheWriter) (id : CallId) (d : Draft)
    (reply : Except LedgerError Word) : (w.nonceRead id d reply).2.Later 6 := by
  unfold CacheWriter.nonceRead
  cases reply with
  | error e => exact (by omega : 6 < 8)
  | ok nonce => exact withNonce_later _ id d nonce (by omega)

theorem simulated_later (w : CacheWriter) (id : CallId) (d : Draft) (write : Operation)
    (reply : Except LedgerError Simulation) : (w.simulated id d write reply).2.Later 7 := by
  unfold CacheWriter.simulated
  cases reply with
  | error e => exact Nat.lt_succ_self 7
  | ok outcome =>
    simp only
    split <;> exact Nat.lt_succ_self 7

/-- The lifecycle of a request while its write is drafted, by the code of the response that stands
in for a missing one. -/
inductive Lifecycle.Stands (key : Hash) : Option ErrorCode → Lifecycle → Prop
  | given : Stands key none
      ⟨key, [.verifying, .requesting, .resolving, .detected], .populating⟩
  | standIn (e : ServiceError) :
      Stands key (some e.code) ⟨key, [.requesting, .resolving, .detected], .failed e.reason⟩

theorem Answered.stands {signer : Signer} {log : List Event} {l : Lifecycle}
    (h : Answered signer id log request block answer l) :
    l.Stands request.requestId answer.fallback := by
  cases h with
  | given => exact .given
  | standIn => exact .standIn _

theorem afterDrafting_pursued {step : CacheWriter × DraftResult} (hlater : step.2.Later rank)
    (hl : c.lifecycle.Stands c.requestId answer.fallback) :
    Pursued systemAccount c.op c.request c.block rank (r.afterDrafting id c answer step).2 := by
  obtain ⟨w, result⟩ := step
  unfold Relay.afterDrafting
  cases result with
  | waiting stage => exact .waiting rfl hlater
  | failed e => exact .rejected trivial
  | prepared p =>
    simp only
    generalize answer.fallback = fallback at hl
    generalize c.lifecycle = l at hl
    cases hl with
    | standIn e => exact .waiting rfl hlater
    | given =>
      rw [Lifecycle.advance_eq rfl rfl]
      exact .waiting rfl hlater

theorem startDrafting_pursued (r : Relay) (id : CallId) (c : Candidate) (answer : Answer)
    (deadline : Nat) {l : Lifecycle} (hl : l.Stands c.requestId answer.fallback) :
    Pursued systemAccount c.op c.request c.block 4
      (r.startDrafting id { c with lifecycle := l, deadline := deadline } answer).2 := by
  generalize hc : { c with lifecycle := l, deadline := deadline } = c'
  have hl' : c'.lifecycle.Stands c'.requestId answer.fallback := hc ▸ hl
  have hp : Pursued systemAccount c'.op c'.request c'.block 4 (r.startDrafting id c' answer).2 :=
    afterDrafting_pursued (start_later _ id _) hl'
  subst hc
  exact hp

theorem standInResponse_proper {code : ErrorCode} {e : Rejection}
    (h : r.standInResponse request code = .error e) : e.Proper systemAccount op := by
  unfold Relay.standInResponse at h
  split at h
  · cases h
    trivial
  · split at h
    · cases h
      trivial
    · cases h

theorem afterResponse_pursued (registration : Registration)
    (hl : c.lifecycle = ⟨c.requestId, [.resolving, .detected], .requesting⟩)
    (reply : Except ServiceError ComputeResponse) :
    Pursued systemAccount c.op c.request c.block 4 (r.afterResponse id c registration reply).2 := by
  cases reply with
  | ok response =>
    simp only [Relay.afterResponse]
    rw [enter_eq hl rfl]
    cases hver : response.verify c.request registration.signer with
    | error e => exact .rejected trivial
    | ok payload =>
      simp only
      rw [enter_eq rfl rfl]
      exact startDrafting_pursued _ id c ⟨response, none⟩ c.deadline .given
  | error e =>
    simp only [Relay.afterResponse]
    rw [enter_eq hl (by cases e <;> rfl)]
    cases hs : (r.record c.requestId (.failed e.reason)).standInResponse c.request e.code with
    | error rejection => exact .rejected (standInResponse_proper hs)
    | ok response =>
      exact startDrafting_pursued _ id c ⟨response, some e.code⟩ _ (.standIn e)

/-- A pair with a write of the system account is refused for nothing but the other sender. -/
theorem Pair.served_of_create_error {key : Hash} {write served : Operation}
    {estimate : GasEstimate} {fallback : Option ErrorCode} {e : OrderError}
    (h : Pair.create key write served estimate systemAccount fallback = .error e)
    (hwrite : write.sender = systemAccount) : served.sender = systemAccount := by
  by_contra hserved
  rw [Pair.create, if_neg (not_not.mpr hwrite), if_neg hserved] at h
  cases h

theorem afterResimulation_pursued {prepared : Prepared} {l : Lifecycle}
    (hl : c.lifecycle = l.repriced answer) (hs : l.Stands c.requestId answer.fallback)
    (hsender : prepared.write.sender = r.systemAccount) (reply : Except LedgerError Simulation) :
    Pursued r.systemAccount c.op c.request c.block rank
      (r.afterResimulation id c answer prepared reply).2 := by
  cases reply with
  | error e => exact .rejected trivial
  | ok outcome =>
    simp only [Relay.afterResimulation]
    split
    · exact .rejected trivial
    · rename_i fee _
      split
      · rename_i e hpair
        have hserved : (c.op.withGas fee.estimate).sender = r.systemAccount :=
          Pair.served_of_create_error hpair hsender
        exact .rejected hserved
      · rename_i pair hpair
        obtain ⟨-, -, rfl⟩ := Pair.create_eq_ok_iff.mp hpair
        generalize hf : answer.fallback = fallback at hs
        cases hs with
        | standIn e =>
          have hl' : c.lifecycle = ⟨c.requestId, [.requesting, .resolving, .detected],
              .failed e.reason⟩ := by rw [hl, Lifecycle.repriced, hf]; rfl
          refine .paired ?_
          simp only [hl']
          exact .failed e
        | given =>
          have hadv : c.lifecycle.advance .completed = .ok ⟨c.requestId,
              [.reestimating, .populating, .verifying, .requesting, .resolving, .detected],
              .completed⟩ := by
            rw [hl, Lifecycle.repriced, hf]
            rfl
          rw [hadv]
          exact .paired .completed

theorem takeOn_pursued (r : Relay) (deadline : Nat) (hrank : rank < 3) :
    Pursued systemAccount op request block rank (r.takeOn op request block deadline).2 := by
  unfold Relay.takeOn
  simp only
  split
  · exact .rejected trivial
  · rw [enter_eq rfl rfl]
    exact .waiting rfl hrank

theorem intercept_pursued {outcome : Simulation} (hf : detect op outcome = .ok (some request))
    (r : Relay) (id : CallId) (deadline : Nat) :
    Pursued systemAccount op request outcome.block 1 (r.intercept id op outcome deadline).2 := by
  unfold Relay.intercept
  rw [hf]
  simp only
  split
  · split
    · exact takeOn_pursued _ deadline (by omega)
    · exact .waiting rfl (Nat.lt_succ_self 1)
  · exact takeOn_pursued r deadline (by omega)

theorem row_pursued (hl : c.lifecycle = ⟨c.requestId, [.detected], .resolving⟩)
    (reply : Except LedgerError RegistryRow) :
    Pursued systemAccount c.op c.request c.block 3
      (r.resumeReply id (.resolving c) (.row reply)).2 := by
  cases reply with
  | error e => exact .rejected trivial
  | ok row =>
    simp only [Relay.resumeReply]
    cases hrow : row.check c.request.account c.block with
    | error e => cases e <;> exact .rejected trivial
    | ok registration =>
      simp only
      rw [enter_eq hl rfl]
      exact .waiting rfl (Nat.lt_succ_self 3)

/-- A call that works on a request gets further with each event that it waits for. -/
theorem Resumed.pursued {e : Event} {stage : Stage} {step : Relay × Progress} {log : List Event}
    (h : Resumed r id stage e step) (hwork : stage.work? = some (op, request, block))
    (hb : stage.Backed r.config r.writer.signer id log) :
    (e = .turn id ∧ step = (r, .waiting stage)) ∨
      Pursued r.systemAccount op request block stage.rank step.2 := by
  cases stage with
  | readingBlock => cases hwork
  | simulating => cases hwork
  | expiring => cases hwork
  | dropping => cases hwork
  | resyncing => cases hwork
  | clearing since op request block deadline =>
    cases hwork
    cases h with
    | turn first => exact .inr (takeOn_pursued _ deadline (Nat.lt_succ_self 2))
    | reply expected => cases expected
    | timeout passed => cases passed
  | resolving c =>
    cases hwork
    cases h with
    | turn first => exact .inl ⟨rfl, rfl⟩
    | @reply reply expected =>
      cases reply with
      | row reply => exact .inr (row_pursued hb.2 reply)
      | _ => cases expected
    | timeout passed => exact .inr (.rejected trivial)
  | asking c registration =>
    cases hwork
    obtain ⟨-, -, hl⟩ := hb
    cases h with
    | turn first => exact .inl ⟨rfl, rfl⟩
    | @reply reply expected =>
      cases reply with
      | response reply => exact .inr (afterResponse_pursued registration hl reply)
      | _ => cases expected
    | timeout passed => exact .inr (afterResponse_pursued registration hl (.error .timeout))
  | drafting c answer stage =>
    cases hwork
    have hl : c.lifecycle.Stands c.requestId answer.fallback := hb.2.1.stands
    cases h with
    | turn first =>
      cases stage with
      | queued => exact .inr (afterDrafting_pursued (takeTurn_later first _) hl)
      | reading => exact .inl ⟨rfl, rfl⟩
      | simulating write => exact .inl ⟨rfl, rfl⟩
    | @reply reply expected =>
      cases stage with
      | queued => cases expected
      | reading =>
        cases reply with
        | nonce reply => exact .inr (afterDrafting_pursued (nonceRead_later _ id _ reply) hl)
        | _ => cases expected
      | simulating write =>
        cases reply with
        | simulation reply =>
          exact .inr (afterDrafting_pursued (simulated_later _ id _ write reply) hl)
        | _ => cases expected
    | timeout passed => exact .inr (.rejected trivial)
  | resimulating c answer prepared =>
    cases hwork
    obtain ⟨-, ⟨l, ha, hl⟩, nonce, hbuild⟩ := hb
    cases h with
    | turn first => exact .inl ⟨rfl, rfl⟩
    | @reply reply expected =>
      cases reply with
      | simulation reply =>
        exact .inr (afterResimulation_pursued hl ha.stands (CacheWriter.build_spec hbuild).sender
          reply)
      | _ => cases expected
    | timeout passed => exact .inr (.rejected trivial)

end ComputeRelay
