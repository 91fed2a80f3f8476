import ComputeRelay.Proofs.Holdings

/-! Each function that takes a call further is followed once: it is a chain of moves, and what it
leaves behind is backed by what the call has heard. No request fails for its lifecycle, since the
evidence of each stage says where its lifecycle stands. -/

namespace ComputeRelay

open Relay

/-- The step that the event `e` causes at `r₀` for the call `id` has got as far as the relay `r`,
with these holdings of the call. -/
structure Reached (r₀ : Relay) (e : Event) (id : CallId) (log : List Event) (r : Relay)
    (h : Hold) : Prop where
  config : r.writer.config = r₀.writer.config
  signer : r.writer.signer = r₀.writer.signer
  calls : r.calls = r₀.calls
  moves : Moves r₀ e id log (r₀.shared, r₀.holdOf id) (r.shared, h)

/-- What a step of a call that began at `r₀` leaves behind at `r` is backed. A finished pair is
stored, the call had reserved its request before, and the lifecycle that the call returns with it
is at its end. -/
def Progress.Backed (r₀ : Relay) (id : CallId) (log : List Event) (r : Relay) : Progress → Prop
  | .waiting stage => stage.Backed r₀.config r₀.writer.signer id log
  | .finished (.paired pair _ l) =>
    pair.Backed r₀.config r₀.writer.signer id log ∧
      (r₀.holdOf id).reserved? = some pair.requestId ∧
      Table.get? r.pending pair.requestId = some ⟨pair, r.now⟩ ∧
      l.requestId = pair.requestId ∧ l.state = pair.endState
  | .finished _ => True

/-- The step ends here, at a backed stage or with a backed result. -/
structure Leads (r₀ : Relay) (e : Event) (id : CallId) (log : List Event)
    (step : Relay × Progress) : Prop where
  reached : Reached r₀ e id log step.1 step.2.hold
  backed : step.2.Backed r₀ id log step.1

def DraftResult.hold (c : Candidate) : DraftResult → Hold
  | .waiting stage => ⟨c.row?, some c.requestId, stage.place⟩
  | .failed _ => { row? := c.row? }
  | .prepared p => ⟨c.row?, some c.requestId, .granted p.write.nonce⟩

def DraftResult.Backed (config : Config) (signer : Signer) (c : Candidate) (answer : Answer) :
    DraftResult → Prop
  | .waiting (.simulating write) => Written config signer c.op c.requestId answer.response write
  | .prepared p => Written config signer c.op c.requestId answer.response p.write
  | _ => True

/-- The step has got as far as a result of the drafting of a write. -/
structure Drafts (r₀ : Relay) (e : Event) (id : CallId) (log : List Event) (r : Relay)
    (c : Candidate) (answer : Answer) (step : CacheWriter × DraftResult) : Prop where
  reached : Reached r₀ e id log { r with writer := step.1 } (step.2.hold c)
  backed : step.2.Backed r₀.config r₀.writer.signer c answer

variable {r₀ r : Relay} {e : Event} {id : CallId} {log : List Event} {h : Hold} {c : Candidate}
  {answer : Answer}

theorem Reached.start (hh : r₀.holdOf id = h) : Reached r₀ e id log r₀ h :=
  ⟨rfl, rfl, rfl, hh ▸ .refl⟩

namespace Reached

theorem join (hr : Reached r₀ e id log r h) (outside : h.place = .outside) :
    Reached r₀ e id log (r.modifyLane (·.join id)) { h with place := .waiting } :=
  ⟨hr.config, hr.signer, hr.calls, hr.moves.tail (.join outside)⟩

theorem leave (hr : Reached r₀ e id log r h) :
    Reached r₀ e id log (r.modifyLane (·.leave id)) { h with place := .outside } :=
  ⟨hr.config, hr.signer, hr.calls, hr.moves.tail .leave⟩

theorem record (hr : Reached r₀ e id log r h) (next : RequestState) {key : Hash}
    {state : RequestState} (row : h.row? = some (key, state)) :
    Reached r₀ e id log (r.record key next) { h with row? := some (key, next) } :=
  ⟨hr.config, hr.signer, hr.calls, hr.moves.tail (.record row)⟩

theorem forget (hr : Reached r₀ e id log r {}) :
    Reached r₀ e id log (r.forget (r₀.forgets e)) {} :=
  ⟨hr.config, hr.signer, hr.calls, hr.moves.tail .forget⟩

theorem resync (hr : Reached r₀ e id log r h) (waiting : h.place = .waiting)
    (first : r.writer.lane.isHeldBy id = true) :
    Reached r₀ e id log (r.modifyLane fun lane => lane.forget.leave id)
      { h with place := .outside } :=
  ⟨hr.config, hr.signer, hr.calls, (hr.moves.tail (.resync waiting first)).tail .leave⟩

theorem abandon (hr : Reached r₀ e id log r h) {key : Hash} (held : h.reserved? = some key) :
    Reached r₀ e id log { r with writer := r.writer.abandon id key } { row? := h.row? } :=
  ⟨hr.config, hr.signer, hr.calls, (hr.moves.tail (.release held)).tail .leave⟩

theorem giveBack (hr : Reached r₀ e id log r h) (waiting : h.place = .waiting)
    (first : r.writer.lane.isHeldBy id = true) (selected : Hash → PendingPair → Bool) :
    Reached r₀ e id log (r.giveBack selected).1 h := by
  rcases giveBack_cases r selected with heq | ⟨old, -, -, heq⟩
  · rw [heq]
    exact hr
  · rw [heq]
    have fits : old.2.pair.write.nonce.toNat < 2 ^ 256 := old.2.pair.write.nonce.isLt
    exact ⟨hr.config, hr.signer, hr.calls, hr.moves.tail (.rewind waiting first fits)⟩

theorem clear (hr : Reached r₀ e id log r { place := .waiting })
    (first : r.writer.lane.isHeldBy id = true) (since : Nat) :
    Reached r₀ e id log (r.clear id since).1 {} :=
  (hr.giveBack rfl first fun _ entry => r.expired since entry).leave

theorem reject (hr : Reached r₀ e id log r { row? := c.row? }) (err : Rejection) :
    Leads r₀ e id log (r.reject c err) :=
  ⟨⟨hr.config, hr.signer, hr.calls, hr.moves.tail (.close rfl rfl)⟩, trivial⟩

theorem giveUp (hr : Reached r₀ e id log r h) (row : h.row? = c.row?)
    (held : h.reserved? = some c.requestId) (err : Rejection) :
    Leads r₀ e id log (r.giveUp id c err) := by
  have ha := hr.abandon held
  rw [row] at ha
  exact ha.reject err

end Reached

theorem Lifecycle.advance_eq {l : Lifecycle} {key : Hash} {past : List RequestState}
    {state next : RequestState} (hl : l = ⟨key, past, state⟩)
    (ht : state.transition next = .ok next) :
    l.advance next = .ok ⟨key, state :: past, next⟩ := by
  rw [hl]
  simp only [Lifecycle.advance, ht]
  rfl

/-- A request enters the state that follows on the one it is in. -/
theorem enter_eq {key : Hash} {past : List RequestState} {state next : RequestState}
    {go : Relay → Candidate → Relay × Progress} (hc : c.lifecycle = ⟨key, past, state⟩)
    (ht : state.transition next = .ok next) :
    r.enter c next go =
      go (r.record c.requestId next) { c with lifecycle := ⟨key, state :: past, next⟩ } := by
  unfold Relay.enter
  rw [Lifecycle.advance_eq hc ht]

theorem withNonce_drafts {nonce : Word}
    (hr : Reached r₀ e id log r ⟨c.row?, some c.requestId, .granted nonce⟩) :
    Drafts r₀ e id log r c answer (r.writer.withNonce id (c.draft answer) nonce) := by
  unfold CacheWriter.withNonce
  cases hb : r.writer.build (c.draft answer).served (c.draft answer).requestId
      (c.draft answer).response nonce with
  | error err => exact ⟨hr.abandon rfl, trivial⟩
  | ok write =>
    have hw : Written r₀.config r₀.writer.signer c.op c.requestId answer.response write := by
      have hw := CacheWriter.written_of_build hb
      rw [hr.config, hr.signer] at hw
      exact hw
    refine ⟨?_, hw⟩
    rw [← (CacheWriter.build_spec hb).nonce] at hr
    exact hr

theorem takeTurn_drafts (hr : Reached r₀ e id log r ⟨c.row?, some c.requestId, .waiting⟩) :
    Drafts r₀ e id log r c answer (r.writer.takeTurn id (c.draft answer)) := by
  unfold CacheWriter.takeTurn
  cases hs : r.writer.lane.standing id with
  | waiting => exact ⟨hr, trivial⟩
  | reading =>
    exact ⟨⟨hr.config, hr.signer, hr.calls, hr.moves.tail (.read rfl hs)⟩, trivial⟩
  | granted nonce =>
    have hg : Reached r₀ e id log r ⟨c.row?, some c.requestId, .granted nonce⟩ :=
      ⟨hr.config, hr.signer, hr.calls, hr.moves.tail (.grant rfl hs)⟩
    exact withNonce_drafts hg

theorem start_drafts (hr : Reached r₀ e id log r { row? := c.row? }) :
    Drafts r₀ e id log r c answer (r.writer.start id (c.draft answer)) := by
  unfold CacheWriter.start
  split
  · exact ⟨hr, trivial⟩
  · rename_i hfree
    have hnew : c.requestId ∉ r.writer.reserved := by
      simpa [CacheWriter.isReserved, Candidate.draft] using hfree
    -- reserved and in line, the call goes on as if its turn had come
    let r' : Relay :=
      { r with
        writer := { r.writer with
          reserved := r.writer.reserved ++ [c.requestId], lane := r.writer.lane.join id } }
    have hr' : Reached r₀ e id log r' ⟨c.row?, some c.requestId, .waiting⟩ :=
      ⟨hr.config, hr.signer, hr.calls,
        (hr.moves.tail (.reserve rfl rfl hnew)).tail (.join rfl)⟩
    have hd : Drafts r₀ e id log r' c answer (r'.writer.takeTurn id (c.draft answer)) :=
      takeTurn_drafts hr'
    exact ⟨hd.reached, hd.backed⟩

theorem nonceRead_drafts (hr : Reached r₀ e id log r ⟨c.row?, some c.requestId, .reading⟩)
    {reply : Except LedgerError Word}
    (taught : ∀ nonce, reply = .ok nonce → r₀.teaches? e = some nonce)
    (untouched : r.pending = r₀.pending) :
    Drafts r₀ e id log r c answer (r.writer.nonceRead id (c.draft answer) reply) := by
  unfold CacheWriter.nonceRead
  cases reply with
  | error err => exact ⟨hr.abandon rfl, trivial⟩
  | ok nonce =>
    let r' : Relay :=
      { r with writer := { r.writer with lane := r.writer.lane.learn nonce } }
    have hr' : Reached r₀ e id log r' ⟨c.row?, some c.requestId, .granted nonce⟩ :=
      ⟨hr.config, hr.signer, hr.calls, hr.moves.tail (.learn rfl (taught nonce rfl) untouched)⟩
    have hd : Drafts r₀ e id log r' c answer (r'.writer.withNonce id (c.draft answer) nonce) :=
      withNonce_drafts hr'
    exact ⟨hd.reached, hd.backed⟩

theorem simulated_drafts {write : Operation}
    (hr : Reached r₀ e id log r ⟨c.row?, some c.requestId, .granted write.nonce⟩)
    (hw : Written r₀.config r₀.writer.signer c.op c.requestId answer.response write)
    (reply : Except LedgerError Simulation) :
    Drafts r₀ e id log r c answer (r.writer.simulated id (c.draft answer) write reply) := by
  unfold CacheWriter.simulated
  cases reply with
  | error err => exact ⟨hr.abandon rfl, trivial⟩
  | ok outcome =>
    simp only
    split
    · exact ⟨hr.abandon rfl, trivial⟩
    · exact ⟨hr, hw⟩

theorem afterDrafting_leads {step : CacheWriter × DraftResult}
    (hd : Detected id log c.op c.request c.block)
    (ha : Answered r₀.writer.signer id log c.request c.block answer c.lifecycle)
    (hs : Drafts r₀ e id log r c answer step) :
    Leads r₀ e id log (r.afterDrafting id c answer step) := by
  obtain ⟨w, result⟩ := step
  obtain ⟨hreached, hbacked⟩ := hs
  unfold Relay.afterDrafting
  cases result with
  | waiting stage =>
    refine ⟨hreached, hd, ha, ?_⟩
    rintro write rfl
    exact hbacked
  | failed err => exact hreached.reject _
  | prepared p =>
    simp only
    split
    · rename_i hf
      exact ⟨hreached, hd, ⟨c.lifecycle, ha, by simp [Lifecycle.repriced, hf]⟩, hbacked⟩
    · rename_i hf
      have hl := ha.populating (by simpa using hf)
      rw [Lifecycle.advance_eq hl rfl]
      refine ⟨hreached.record .reestimating rfl, hd, ⟨c.lifecycle, ha, ?_⟩, hbacked⟩
      simp [Lifecycle.repriced, hf, hl]

theorem standInResponse_eq_ok {request : ComputeRequest} {code : ErrorCode}
    {response : ComputeResponse} :
    r.standInResponse request code = .ok response ↔
      r.writer.signer.respond request.requestId code [] = .ok response ∧
        ∃ payload, response.verify request r.writer.signer.address = .ok payload := by
  unfold Relay.standInResponse
  cases hs : r.writer.signer.respond request.requestId code [] with
  | error err => simp
  | ok signed =>
    cases hv : signed.verify request r.writer.signer.address with
    | error err =>
      simp only [hv, reduceCtorEq, Except.ok.injEq, false_iff, not_and]
      rintro rfl
      simp [hv]
    | ok payload =>
      simp only [hv, Except.ok.injEq]
      refine ⟨?_, fun h => h.1⟩
      rintro rfl
      exact ⟨rfl, payload, hv⟩

/-- Without a registration's signature on it no response is used, and the relay's own signer signs
only in place of a missing response. -/
theorem afterResponse_leads {registration : Registration}
    {reply : Except ServiceError ComputeResponse}
    (hr : Reached r₀ e id log r { row? := c.row? })
    (hd : Detected id log c.op c.request c.block)
    (hg : Registered id log c.request c.block registration)
    (hl : c.lifecycle = ⟨c.requestId, [.resolving, .detected], .requesting⟩)
    (came : ∀ response, reply = .ok response → Event.reply id (.response (.ok response)) ∈ log)
    (failed : ∀ err, reply = .error err → Event.reply id (.response (.error err)) ∈ log ∨
      err = .timeout ∧ Event.timeout id ∈ log) :
    Leads r₀ e id log (r.afterResponse id c registration reply) := by
  cases reply with
  | ok response =>
    simp only [Relay.afterResponse]
    rw [enter_eq hl rfl]
    have hv := hr.record .verifying rfl
    cases hver : response.verify c.request registration.signer with
    | error err =>
      exact Reached.reject (c := { c with lifecycle := _ }) hv _
    | ok payload =>
      simp only
      rw [enter_eq rfl rfl]
      have hp := hv.record .populating rfl
      exact afterDrafting_leads hd (.given hg (came response rfl) hver)
        (start_drafts (c := { c with lifecycle := _ }) hp)
  | error err =>
    simp only [Relay.afterResponse]
    rw [enter_eq hl (by cases err <;> rfl)]
    have hf := hr.record (.failed err.reason) rfl
    cases hs : (r.record c.requestId (.failed err.reason)).standInResponse c.request err.code with
    | error rejection =>
      exact Reached.reject (c := { c with lifecycle := _ }) hf _
    | ok response =>
      obtain ⟨hsign, payload, hver⟩ := standInResponse_eq_ok.mp hs
      rw [hf.signer] at hsign hver
      exact afterDrafting_leads hd (.standIn hg (failed err rfl) hsign hver)
        (start_drafts (c := { c with lifecycle := _, deadline := _ }) hf)

theorem backed_of_create {prepared : Prepared} {estimate : GasEstimate}
    {account : Address} {pair : Pair} {l : Lifecycle}
    (hd : Detected id log c.op c.request c.block)
    (ha : Answered r₀.writer.signer id log c.request c.block answer l)
    (hw : Written r₀.config r₀.writer.signer c.op c.requestId answer.response prepared.write)
    (hc : Pair.create c.requestId prepared.write (c.op.withGas estimate) estimate account
      answer.fallback = .ok pair) :
    pair.Backed r₀.config r₀.writer.signer id log ∧ pair.write = prepared.write ∧
      pair.requestId = c.requestId ∧ pair.fallback = answer.fallback := by
  obtain ⟨-, -, rfl⟩ := Pair.create_eq_ok_iff.mp hc
  exact ⟨⟨hd, ha, hw, rfl, rfl, rfl⟩, rfl, rfl, rfl⟩

theorem Reached.finish {pair : Pair} {fee : FeeAdjustment} {l : Lifecycle} {prepared : Prepared}
    {key : Hash} (hr : Reached r₀ e id log r ⟨some (key, pair.endState), some key,
      .granted prepared.write.nonce⟩)
    (before : (r₀.holdOf id).place = .granted prepared.write.nonce)
    (held : (r₀.holdOf id).reserved? = some key) (hid : pair.requestId = key)
    (hwrite : pair.write = prepared.write) (hkey : l.requestId = key)
    (hend : l.state = pair.endState)
    (backed : pair.Backed r₀.config r₀.writer.signer id log) :
    Leads r₀ e id log
      ({ r with
          pending := Table.insert r.pending key ⟨pair, r.now⟩
          writer := r.writer.keep id prepared }, .finished (.paired pair fee l)) := by
  subst hid
  rw [← hwrite] at hr before
  refine ⟨⟨hr.config, hr.signer, hr.calls, ?_⟩, backed, held, ?_, hkey, hend⟩
  swap
  · simp [Table.get?_insert]
  have hm := hr.moves.tail (.finish r.now rfl rfl rfl before backed)
  rw [hwrite] at hm
  exact hm

theorem afterResimulation_leads {prepared : Prepared} {l : Lifecycle}
    (hr : Reached r₀ e id log r ⟨c.row?, some c.requestId, .granted prepared.write.nonce⟩)
    (before : (r₀.holdOf id).place = .granted prepared.write.nonce)
    (held : (r₀.holdOf id).reserved? = some c.requestId)
    (hd : Detected id log c.op c.request c.block)
    (ha : Answered r₀.writer.signer id log c.request c.block answer l)
    (hl : c.lifecycle = l.repriced answer)
    (hw : Written r₀.config r₀.writer.signer c.op c.requestId answer.response prepared.write)
    (reply : Except LedgerError Simulation) :
    Leads r₀ e id log (r.afterResimulation id c answer prepared reply) := by
  cases reply with
  | error err => exact hr.giveUp rfl rfl _
  | ok outcome =>
    simp only [Relay.afterResimulation]
    split
    · exact hr.giveUp rfl rfl _
    · rename_i fee _
      split
      · exact hr.giveUp rfl rfl _
      · rename_i pair hpair
        obtain ⟨hbacked, hwrite, hid, hfall⟩ := backed_of_create hd ha hw hpair
        split
        · rename_i hf
          -- the lifecycle of a request with a stand-in response has ended before its draft
          have hl' : c.lifecycle = l := by simp [hl, Lifecycle.repriced, hf]
          have hend : c.lifecycle.state = pair.endState := hl' ▸ ha.endState hf hfall
          rw [Candidate.row?, hend] at hr
          exact hr.finish before held hid hwrite (hl' ▸ ha.requestId_eq) hend hbacked
        · rename_i hf
          have hnone : answer.fallback = none := by simpa using hf
          have hadv : c.lifecycle.advance .completed = .ok ⟨c.requestId,
              [.reestimating, .populating, .verifying, .requesting, .resolving, .detected],
              .completed⟩ := by
            rw [hl, ha.populating hnone, Lifecycle.repriced, if_neg hf]
            rfl
          rw [hadv]
          have hc := hr.record .completed rfl
          have hend : pair.endState = .completed := by simp [Pair.endState, hfall, hnone]
          rw [← hend] at hc
          simp only [← hend]
          exact hc.finish before held hid hwrite rfl rfl hbacked

end ComputeRelay
