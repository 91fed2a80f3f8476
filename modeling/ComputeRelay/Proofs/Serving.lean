import ComputeRelay.Proofs.Course
import ComputeRelay.Proofs.Repricing
import ComputeRelay.Proofs.Steps

/-! How a call gets on when every reply is the one it hopes for: from its start to its finished
pair, each step as an equation between the relays before and after it. -/

namespace ComputeRelay

open Relay

/-- A simulation without fault that uses no gas. -/
def Simulation.clean : Simulation := { success := true }

variable {r : Relay} {id : CallId} {c : Candidate} {answer : Answer}

theorem step_reply_fst {stage : Stage} {reply : Reply} (hs : Table.get? r.calls id = some stage) :
    r.step (.reply id reply) = settle id (r.resumeReply id stage reply) := by
  simp only [step, hs]

theorem step_tick {ms now later : Nat} (hnow : r.now = now) (h : now + ms = later) :
    r.step (.tick ms) = ({ r with now := later }, none) := by
  rw [← h, ← hnow]
  rfl

/-- A request without a row is taken on. -/
theorem takeOn_free {request : ComputeRequest}
    (hfree : Table.get? r.active request.requestId = none) (op : Operation) (block : BlockContext)
    (deadline : Nat) :
    r.takeOn op request block deadline =
      (r.record request.requestId .resolving, .waiting (.resolving ⟨op, request, block, deadline,
        ⟨request.requestId, [.detected], .resolving⟩⟩)) := by
  have hrow : Table.contains r.active request.requestId = false :=
    Table.contains_eq_false_iff.mpr hfree
  simp only [takeOn, hrow, Bool.false_eq_true, if_false]
  rw [enter_eq rfl rfl]
  simp only [Relay.record, Candidate.requestId, Table.insert_insert, Lifecycle.start]

/-- With no pair expired, this happens at once. -/
theorem intercept_free {op : Operation} {outcome : Simulation} {request : ComputeRequest}
    {deadline : Nat} (hfresh : (r.pending.any fun e => r.expired r.now e.2) = false)
    (hfree : Table.get? r.active request.requestId = none)
    (hd : detect op outcome = .ok (some request)) :
    r.intercept id op outcome deadline =
      (r.record request.requestId .resolving, .waiting (.resolving ⟨op, request, outcome.block,
        deadline, ⟨request.requestId, [.detected], .resolving⟩⟩)) := by
  simp only [intercept, hd, hfresh, Bool.false_eq_true, if_false, takeOn_free hfree]

theorem start_reply {op : Operation} {outcome : Simulation} {request : ComputeRequest}
    (hunused : Table.get? r.calls id = none)
    (hfresh : (r.pending.any fun e => r.expired r.now e.2) = false)
    (hfree : Table.get? r.active request.requestId = none)
    (hd : detect op outcome = .ok (some request)) :
    r.step (.start id (.processSimulated op outcome)) =
      ({ r with
          active := Table.insert r.active request.requestId .resolving
          calls := Table.insert r.calls id (.resolving ⟨op, request, outcome.block,
            r.now + r.config.requestTimeoutMs.toNat,
            ⟨request.requestId, [.detected], .resolving⟩⟩) }, none) := by
  have hcall : Table.contains r.calls id = false := Table.contains_eq_false_iff.mpr hunused
  simp only [step, hcall, Bool.false_eq_true, if_false, Relay.begin, intercept_free hfresh hfree hd]
  rfl

/-- Behind another call in the lane, a call with expired pairs to drop stands in line first. -/
theorem start_clearing {op : Operation} {outcome : Simulation} {request : ComputeRequest}
    (hunused : Table.get? r.calls id = none)
    (hold : (r.pending.any fun e => r.expired r.now e.2) = true)
    (hbusy : (r.writer.lane.join id).isHeldBy id = false)
    (hd : detect op outcome = .ok (some request)) :
    r.step (.start id (.processSimulated op outcome)) =
      ({ r with
          writer := { r.writer with lane := r.writer.lane.join id }
          calls := Table.insert r.calls id (.clearing r.now op request outcome.block
            (r.now + r.config.requestTimeoutMs.toNat)) }, none) := by
  have hcall : Table.contains r.calls id = false := Table.contains_eq_false_iff.mpr hunused
  simp only [step, hcall, Relay.begin, intercept, hd, hold, modifyLane, hbusy, Bool.false_eq_true,
    if_false, if_true]
  rfl

theorem clear_inactive {key : Hash} (hfree : Table.get? r.active key = none) (id : CallId)
    (since : Nat) : Table.get? (r.clear id since).1.active key = none := by
  unfold Relay.clear
  rcases giveBack_cases r fun _ entry => r.expired since entry with heq | ⟨old, -, -, heq⟩
  · rw [heq]
    exact hfree
  · rw [heq]
    exact ((Shared.get?_active_forget r.shared _ key).trans (by simp [shared, hfree]))

/-- When it holds the lane, it drops the expired pairs and is taken on. -/
theorem turn_clearing {since deadline : Nat} {op : Operation} {request : ComputeRequest}
    {block : BlockContext}
    (hs : Table.get? r.calls id = some (.clearing since op request block deadline))
    (hheld : r.writer.lane.isHeldBy id = true)
    (hfree : Table.get? r.active request.requestId = none) :
    r.step (.turn id) =
      ({ (r.clear id since).1 with
          active := Table.insert (r.clear id since).1.active request.requestId .resolving
          calls := Table.insert r.calls id (.resolving ⟨op, request, block, deadline,
            ⟨request.requestId, [.detected], .resolving⟩⟩) }, none) := by
  have hcalls : (r.clear id since).1.calls = r.calls := (clear_same r id since).2
  simp only [step, hs, hheld, if_true, resumeTurn, takeOn_free (clear_inactive hfree id since)]
  rw [← hcalls]
  rfl

theorem simulation_reply {op : Operation} {block : BlockContext} {deadline : Nat}
    {outcome : Simulation} {request : ComputeRequest}
    (hs : Table.get? r.calls id = some (.simulating op block deadline))
    (hfresh : (r.pending.any fun e => r.expired r.now e.2) = false)
    (hfree : Table.get? r.active request.requestId = none)
    (hd : detect op outcome = .ok (some request)) :
    r.step (.reply id (.simulation (.ok outcome))) =
      ({ r with
          active := Table.insert r.active request.requestId .resolving
          calls := Table.insert r.calls id (.resolving ⟨op, request, outcome.block, deadline,
            ⟨request.requestId, [.detected], .resolving⟩⟩) }, none) := by
  rw [step_reply_fst hs]
  simp only [resumeReply, intercept_free hfresh hfree hd]
  rfl

theorem row_reply {row : RegistryRow} {registration : Registration}
    (hs : Table.get? r.calls id = some (.resolving c))
    (hl : c.lifecycle = ⟨c.requestId, [.detected], .resolving⟩)
    (hrow : row.check c.request.account c.block = .ok registration) :
    r.step (.reply id (.row (.ok row))) =
      ({ r with
          active := Table.insert r.active c.requestId .requesting
          calls := Table.insert r.calls id (.asking
            { c with lifecycle := ⟨c.requestId, [.resolving, .detected], .requesting⟩ }
            registration) }, none) := by
  rw [step_reply_fst hs]
  simp only [resumeReply, hrow]
  rw [enter_eq hl rfl]
  rfl

/-- A call asks the service as soon as it has heard the account's row. -/
theorem after_row {op : Operation} {outcome : Simulation} {request : ComputeRequest}
    {row : RegistryRow} {registration : Registration}
    (hunused : Table.get? r.calls id = none)
    (hfresh : (r.pending.any fun e => r.expired r.now e.2) = false)
    (hfree : Table.get? r.active request.requestId = none)
    (hd : detect op outcome = .ok (some request))
    (hrow : row.check request.account outcome.block = .ok registration) :
    r.after [.start id (.processSimulated op outcome), .reply id (.row (.ok row))] =
      { r with
        active := Table.insert r.active request.requestId .requesting
        calls := Table.insert r.calls id (.asking ⟨op, request, outcome.block,
          r.now + r.config.requestTimeoutMs.toNat,
          ⟨request.requestId, [.resolving, .detected], .requesting⟩⟩ registration) } := by
  rw [after_cons, start_reply hunused hfresh hfree hd, after_cons, after_nil,
    row_reply (Table.get?_insert_self _ _ _) rfl hrow]
  simp only [Candidate.requestId, Table.insert_insert]

/-- In an empty lane whose nonce is not known, a draft goes on with the reading of the nonce. -/
theorem CacheWriter.start_reading {w : CacheWriter} {d : Draft} (id : CallId)
    (hout : d.requestId ∉ w.reserved) (hlane : w.lane = {}) :
    w.start id d =
      ({ w with reserved := w.reserved ++ [d.requestId], lane := ⟨none, [id]⟩ },
        .waiting .reading) := by
  have hres : w.isReserved d.requestId = false := by simpa [CacheWriter.isReserved] using hout
  have hjoin : w.lane.join id = ⟨none, [id]⟩ := by
    rw [hlane]
    rfl
  have hstanding : Lane.standing ⟨none, [id]⟩ id = .reading := by
    simp [Lane.standing, Lane.isHeldBy, Lane.holder?]
  simp only [CacheWriter.start, hres, CacheWriter.takeTurn, hjoin, hstanding, Bool.false_eq_true,
    if_false]

/-- In an empty lane whose nonce is known, it goes on with the write of that nonce. -/
theorem CacheWriter.start_granted {w : CacheWriter} {d : Draft} {nonce : Word} {write : Operation}
    (id : CallId) (hout : d.requestId ∉ w.reserved) (hlane : w.lane = ⟨some nonce, []⟩)
    (hb : w.build d.served d.requestId d.response nonce = .ok write) :
    w.start id d =
      ({ w with reserved := w.reserved ++ [d.requestId], lane := ⟨some nonce, [id]⟩ },
        .waiting (.simulating write)) := by
  have hres : w.isReserved d.requestId = false := by simpa [CacheWriter.isReserved] using hout
  have hjoin : w.lane.join id = ⟨some nonce, [id]⟩ := by
    rw [hlane]
    rfl
  have hstanding : Lane.standing ⟨some nonce, [id]⟩ id = .granted nonce := by
    simp [Lane.standing, Lane.isHeldBy, Lane.holder?]
  have hb' : CacheWriter.build { w with
      reserved := w.reserved ++ [d.requestId], lane := ⟨some nonce, [id]⟩ } d.served d.requestId
      d.response nonce = .ok write := hb
  simp only [CacheWriter.start, hres, CacheWriter.takeTurn, hjoin, hstanding, Bool.false_eq_true,
    if_false, CacheWriter.withNonce, hb']

/-- Behind the holder of the lane it waits for its turn. -/
theorem CacheWriter.start_queued {w : CacheWriter} {d : Draft} (id : CallId)
    (hout : d.requestId ∉ w.reserved) (hbusy : (w.lane.join id).isHeldBy id = false) :
    w.start id d =
      ({ w with reserved := w.reserved ++ [d.requestId], lane := w.lane.join id },
        .waiting .queued) := by
  have hres : w.isReserved d.requestId = false := by simpa [CacheWriter.isReserved] using hout
  simp only [CacheWriter.start, hres, CacheWriter.takeTurn, Lane.standing, hbusy,
    Bool.false_eq_true, if_false]

/-- A response that stands is drafted into a write, which goes as far as the lane lets it. -/
theorem response_reply {registration : Registration} {response : ComputeResponse}
    {payload : Payload} {w : CacheWriter} {stage : Drafting}
    (hs : Table.get? r.calls id = some (.asking c registration))
    (hl : c.lifecycle = ⟨c.requestId, [.resolving, .detected], .requesting⟩)
    (hver : response.verify c.request registration.signer = .ok payload)
    (hstart : r.writer.start id (c.draft ⟨response, none⟩) = (w, .waiting stage)) :
    r.step (.reply id (.response (.ok response))) =
      ({ r with
          writer := w
          active := Table.insert r.active c.requestId .populating
          calls := Table.insert r.calls id (.drafting
            { c with lifecycle := ⟨c.requestId,
                [.verifying, .requesting, .resolving, .detected], .populating⟩ }
            ⟨response, none⟩ stage) }, none) := by
  rw [step_reply_fst hs]
  simp only [resumeReply, afterResponse]
  rw [enter_eq hl rfl]
  simp only [hver]
  rw [enter_eq rfl rfl]
  have hdraft : ∀ lifecycle, { c with lifecycle }.draft ⟨response, none⟩ =
      c.draft ⟨response, none⟩ := fun _ => rfl
  simp only [startDrafting, hdraft, Relay.record, hstart, afterDrafting, Candidate.requestId,
    Table.insert_insert]
  rfl

theorem CacheWriter.exists_build {w : CacheWriter}
    (signs : ∀ digest, ∃ signature, w.signer.sign digest = .ok signature) (served : Operation)
    (key : Hash) (response : ComputeResponse) (nonce : Word) :
    ∃ write, w.build served key response nonce = .ok write := by
  obtain ⟨signature, hs⟩ := signs _
  exact ⟨_, build_eq_ok.mpr ⟨signature, hs, rfl⟩⟩

/-- When it holds a lane whose nonce is known, it goes on with the write of that nonce. -/
theorem turn_queued {nonce : Word} {write : Operation}
    (hs : Table.get? r.calls id = some (.drafting c answer .queued))
    (hheld : r.writer.lane.isHeldBy id = true) (hnext : r.writer.lane.next = some nonce)
    (hb : r.writer.build c.op c.requestId answer.response nonce = .ok write) :
    r.step (.turn id) =
      ({ r with calls := Table.insert r.calls id (.drafting c answer (.simulating write)) },
        none) := by
  have hstanding : r.writer.lane.standing id = .granted nonce := by
    simp only [Lane.standing, hheld, hnext, if_true]
  simp only [step, hs, hheld, if_true, resumeTurn, CacheWriter.takeTurn, hstanding,
    CacheWriter.withNonce, Candidate.draft, hb, afterDrafting, settle]

theorem nonce_reply {nonce : Word} {write : Operation}
    (hs : Table.get? r.calls id = some (.drafting c answer .reading))
    (hb : r.writer.build c.op c.requestId answer.response nonce = .ok write) :
    r.step (.reply id (.nonce (.ok nonce))) =
      ({ r with
          writer := { r.writer with lane := r.writer.lane.learn nonce }
          calls := Table.insert r.calls id (.drafting c answer (.simulating write)) }, none) := by
  have hb' : CacheWriter.build { r.writer with lane := r.writer.lane.learn nonce } c.op
      c.requestId answer.response nonce = .ok write := hb
  rw [step_reply_fst hs]
  simp only [resumeReply, CacheWriter.nonceRead, CacheWriter.withNonce, Candidate.draft, hb',
    afterDrafting, settle]

/-- The reply of a simulation without fault. -/
abbrev Relay.Event.clean (id : CallId) : Event := .reply id (.simulation (.ok .clean))

/-- A clean simulation of the write makes it ready: the served operation is simulated next. -/
theorem write_reply {write : Operation}
    (hs : Table.get? r.calls id = some (.drafting c answer (.simulating write)))
    (hl : answer.fallback = none → ∃ key past, c.lifecycle = ⟨key, past, .populating⟩) :
    r.step (.clean id) =
      ({ r with
          active := if answer.fallback.isSome then r.active
            else Table.insert r.active c.requestId .reestimating
          calls := Table.insert r.calls id (.resimulating
            { c with lifecycle := c.lifecycle.repriced answer } answer ⟨write, .clean⟩) },
        none) := by
  have hstep : r.step (.clean id) =
      settle id (r.afterDrafting id c answer (r.writer, .prepared ⟨write, .clean⟩)) := by
    rw [Event.clean, step_reply_fst hs]
    rfl
  rw [hstep]
  simp only [afterDrafting]
  split
  · simp only [Lifecycle.repriced, *, if_true]
    rfl
  · rename_i hf
    obtain ⟨key, past, hc⟩ := hl (by simpa using hf)
    rw [Lifecycle.advance_eq hc rfl]
    simp only [Lifecycle.repriced, hf, hc]
    rfl

/-- The gas that a request pays for its write and its service fits into a word. -/
def FeesFit (config : Config) (op : Operation) : Prop :=
  op.preVerificationGas.toNat + (Word.ofUInt64 config.writeGas.preVerificationGas).toNat +
    (Word.ofUInt64 config.fees.flatFeeGas).toNat < 2 ^ 256

instance (config : Config) (op : Operation) : Decidable (FeesFit config op) :=
  inferInstanceAs (Decidable (_ < _))

theorem reprice_clean {flatFee : Word} {k : Hash} {op write : Operation}
    (h : op.preVerificationGas.toNat + write.preVerificationGas.toNat + flatFee.toNat < 2 ^ 256) :
    ∃ fee, reprice flatFee k op (.ofSimulation write .clean) .clean = .ok fee := by
  rw [exists_reprice_iff]
  refine ⟨⟨rfl, .inl rfl⟩, ?_⟩
  have hverification : (WriteCost.ofSimulation write .clean).verificationGas.toNat = 0 := rfl
  have hcall : (WriteCost.ofSimulation write .clean).callGas.toNat = 0 := rfl
  rw [Operation.dueGas, hverification, hcall]
  exact h

/-- A clean simulation of the served operation behind its write finishes the pair. -/
theorem served_reply {write : Operation}
    (hs : Table.get? r.calls id = some (.resimulating c answer ⟨write, .clean⟩))
    (hl : answer.fallback = none → ∃ key past, c.lifecycle = ⟨key, past, .reestimating⟩)
    (hwrite : write.sender = r.systemAccount) (hsender : c.op.sender ≠ r.systemAccount)
    (hfees : c.op.preVerificationGas.toNat + write.preVerificationGas.toNat +
      (Word.ofUInt64 r.config.fees.flatFeeGas).toNat < 2 ^ 256) :
    ∃ (pair : Pair) (fee : FeeAdjustment) (l : Lifecycle),
      (pair.write = write ∧ pair.served = c.op.withGas pair.estimate) ∧
      r.step (.clean id) =
      ({ r with
          writer := r.writer.keep id ⟨write, .clean⟩
          active := if answer.fallback.isSome then r.active
            else Table.insert r.active c.requestId .completed
          pending := Table.insert r.pending c.requestId ⟨pair, r.now⟩
          calls := Table.erase r.calls id }, some (.paired pair fee l)) := by
  obtain ⟨fee, hfee⟩ := reprice_clean (k := c.requestId) hfees
  let pair : Pair :=
    ⟨c.requestId, write, c.op.withGas fee.estimate, fee.estimate, answer.fallback⟩
  have hpair : Pair.create c.requestId write (c.op.withGas fee.estimate) fee.estimate
      r.systemAccount answer.fallback = .ok pair := by
    have hs' : (c.op.withGas fee.estimate).sender ≠ r.systemAccount := hsender
    simp [Pair.create, hwrite, hs', pair]
  refine ⟨pair, fee, ?_⟩
  rw [Event.clean, step_reply_fst hs]
  simp only [resumeReply, afterResimulation, hfee, hpair]
  split
  · exact ⟨_, ⟨rfl, rfl⟩, rfl⟩
  · rename_i hf
    obtain ⟨key, past, hc⟩ := hl (by simpa using hf)
    rw [hc]
    exact ⟨_, ⟨rfl, rfl⟩, rfl⟩

/-- Two clean simulations take a write to its pair, which comes with the second of them. -/
theorem after_simulations {nonce : Word} {write : Operation}
    (hs : Table.get? r.calls id = some (.drafting c answer (.simulating write)))
    (hl : answer.fallback = none → ∃ key past, c.lifecycle = ⟨key, past, .populating⟩)
    (hb : r.writer.build c.op c.requestId answer.response nonce = .ok write)
    (hsender : c.op.sender ≠ r.systemAccount) (hfees : FeesFit r.config c.op) :
    (r.step (.clean id)).1.pending = r.pending ∧
    ∃ (pair : Pair) (fee : FeeAdjustment) (l : Lifecycle),
      (pair.write = write ∧ pair.served = c.op.withGas pair.estimate) ∧
      (r.step (.clean id)).1.step (.clean id) =
      ({ r with
          writer := r.writer.keep id ⟨write, .clean⟩
          active := if answer.fallback.isSome then r.active
            else Table.insert r.active c.requestId .completed
          pending := Table.insert r.pending c.requestId ⟨pair, r.now⟩
          calls := Table.erase r.calls id }, some (.paired pair fee l)) := by
  have hbuilt := CacheWriter.build_spec hb
  have hl' : answer.fallback = none → ∃ key past,
      c.lifecycle.repriced answer = ⟨key, past, .reestimating⟩ := by
    intro hf
    obtain ⟨key, past, hc⟩ := hl hf
    exact ⟨key, .populating :: past, by simp [Lifecycle.repriced, hf, hc]⟩
  have hgas : write.preVerificationGas = Word.ofUInt64 r.config.writeGas.preVerificationGas :=
    hbuilt.gas
  rw [write_reply hs hl]
  obtain ⟨pair, fee, l, hpair, hfinished⟩ := served_reply (r := { r with
      active := if answer.fallback.isSome then r.active
        else Table.insert r.active c.requestId .reestimating
      calls := Table.insert r.calls id (.resimulating
        { c with lifecycle := c.lifecycle.repriced answer } answer ⟨write, .clean⟩) })
    (Table.get?_insert_self _ _ _) hl' hbuilt.sender hsender (hgas ▸ hfees)
  refine ⟨rfl, pair, fee, l, hpair, hfinished.trans ?_⟩
  cases answer.fallback.isSome <;>
    simp only [Candidate.requestId, Table.erase_insert, Table.insert_insert, if_true, if_false,
      Bool.false_eq_true]

/-- The replies that take a call from the reading of its nonce to its pair. -/
def finishing (id : CallId) (nonce : Word) : List Event :=
  [.reply id (.nonce (.ok nonce)), .clean id, .clean id]

/-- The pair comes with the last of the replies, and none is added to before. -/
theorem after_finishing {nonce : Word} {write : Operation}
    (hs : Table.get? r.calls id = some (.drafting c answer .reading))
    (hl : answer.fallback = none → ∃ key past, c.lifecycle = ⟨key, past, .populating⟩)
    (hb : r.writer.build c.op c.requestId answer.response nonce = .ok write)
    (hsender : c.op.sender ≠ r.systemAccount) (hfees : FeesFit r.config c.op) :
    (∀ n < 3, (r.after ((finishing id nonce).take n)).pending = r.pending) ∧
    ∃ (pair : Pair) (fee : FeeAdjustment) (l : Lifecycle),
      (pair.write = write ∧ pair.served = c.op.withGas pair.estimate) ∧
      (r.after ((finishing id nonce).take 2)).step (.clean id) =
      ({ r with
          writer := { r.writer with lane := r.writer.lane.learn nonce }.keep id ⟨write, .clean⟩
          active := if answer.fallback.isSome then r.active
            else Table.insert r.active c.requestId .completed
          pending := Table.insert r.pending c.requestId ⟨pair, r.now⟩
          calls := Table.erase r.calls id }, some (.paired pair fee l)) := by
  let r₁ : Relay :=
    { r with
      writer := { r.writer with lane := r.writer.lane.learn nonce }
      calls := Table.insert r.calls id (.drafting c answer (.simulating write)) }
  have h₁ : (r.step (.reply id (.nonce (.ok nonce)))).1 = r₁ := by rw [nonce_reply hs hb]
  obtain ⟨hkeeps, pair, fee, l, hpair, hfinished⟩ := after_simulations (r := r₁)
    (Table.get?_insert_self _ _ _) hl hb hsender hfees
  refine ⟨?_, pair, fee, l, hpair, ?_⟩
  · rintro (_ | _ | _ | n) hn
    · rfl
    · show (r.step (.reply id (.nonce (.ok nonce)))).1.pending = r.pending
      rw [h₁]
    · show ((r.step (.reply id (.nonce (.ok nonce)))).1.step (.clean id)).1.pending = r.pending
      rw [h₁, hkeeps]
    · omega
  · show ((r.step (.reply id (.nonce (.ok nonce)))).1.step (.clean id)).1.step (.clean id) = _
    rw [h₁, hfinished]
    simp only [r₁, Table.erase_insert]

theorem drop_nothing (hunused : Table.get? r.calls id = none)
    (hline : r.writer.lane.line = []) :
    (r.step (.start id (.drop []))).1 =
      { r with
        writer := { r.writer with lane := {} }
        calls := Table.erase r.calls id } := by
  have hcall : Table.contains r.calls id = false := Table.contains_eq_false_iff.mpr hunused
  simp [step, hcall, Relay.begin, dropPairs, giveBack, modifyLane, Relay.forget,
    CacheWriter.release, Lane.join, Lane.leave, Lane.forget, Lane.isHeldBy, Lane.holder?, hline,
    settle]

end ComputeRelay
