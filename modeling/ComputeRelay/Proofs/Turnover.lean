import ComputeRelay.Proofs.Footprints

/-! What a step does to the next nonce of the lane and to the pending pairs. A step that does not
work for the drop of a bundle keeps them, learns the nonce, gives expired pairs back, finishes one
pair, has one signed anew, or forgets pairs by name. -/

namespace ComputeRelay

open Relay

structure Stock where
  next : Option Word
  pending : Table Hash PendingPair

def Shared.stock (s : Shared) : Stock := ⟨s.lane.next, s.pending⟩

def Relay.stock (r : Relay) : Stock := r.shared.stock

/-- Whether a call is in line to drop a bundle, or to have the nonce read anew after that. -/
def Stage.drops : Stage → Bool
  | .dropping _ => true
  | .resyncing _ => true
  | _ => false

/-- Whether an event works for the drop of a bundle. -/
def Relay.drops (r : Relay) : Event → Bool
  | .start _ (.drop _) => true
  | .turn id => (Table.get? r.calls id).any Stage.drops
  | _ => false

/-- The result of a call that leaves the pending pairs alone. -/
def Result.isQuiet : Result → Bool
  | .passthrough _ => true
  | .paired _ _ _ => false
  | .rejected _ => true
  | .released requestIds => requestIds.isEmpty

/-- A call finishes its pair: the served operation's simulation behind the write has come. -/
structure Finishes (r : Relay) (e : Event) (id : CallId) (c : Candidate) (answer : Answer)
    (prepared : Prepared) (outcome : Simulation) (pair : Pair) (fee : FeeAdjustment) : Prop where
  found : Table.get? r.calls id = some (.resimulating c answer prepared)
  came : e = .reply id (.simulation (.ok outcome))
  priced : reprice (Word.ofUInt64 r.config.fees.flatFeeGas) c.requestId c.op
    (.ofSimulation prepared.write prepared.outcome) outcome = .ok fee
  created : Pair.create c.requestId prepared.write (c.op.withGas fee.estimate) fee.estimate
    r.systemAccount answer.fallback = .ok pair

/-- The first of the pairs that have expired at `since` is `old`. -/
structure Oldest (r : Relay) (since : Nat) (old : Hash × PendingPair) : Prop where
  stored : old ∈ r.pending
  passed : r.expired since old.2 = true
  lowest : ∀ e ∈ r.pending, r.expired since e.2 = true →
    old.2.pair.write.nonce.toNat ≤ e.2.pair.write.nonce.toNat

/-- What an event does to the stock of a relay, with the result of the call that it takes on. -/
inductive Turnover (r : Relay) (e : Event) : Option Result → Stock → Prop
  | kept {result? : Option Result}
      (quiet : ∀ result, result? = some result → result.isQuiet = true) :
      Turnover r e result? r.stock
  | learned {result? : Option Result} {nonce : Word} (taught : r.teaches? e = some nonce)
      (quiet : ∀ result, result? = some result → result.isQuiet = true) :
      Turnover r e result? { r.stock with next := some nonce }
  | expired {result? : Option Result} {since : Nat} {old : Hash × PendingPair}
      (oldest : Oldest r since old)
      (named : ∀ result, result? = some result → (∃ err, result = .rejected err) ∨
        result = .released (r.shared.above old.2.pair.write.nonce.toNat)) :
      Turnover r e result? (r.shared.rewind old.2.pair.write.nonce.toNat).stock
  | finished {id : CallId} {c : Candidate} {answer : Answer} {prepared : Prepared}
      {outcome : Simulation} {pair : Pair} {fee : FeeAdjustment} (l : Lifecycle)
      (finishes : Finishes r e id c answer prepared outcome pair fee) :
      Turnover r e (some (.paired pair fee l))
        ⟨some (pair.write.nonce + 1), Table.insert r.pending pair.requestId ⟨pair, r.now⟩⟩
  | attached {signed : Operation} {order : List Hash} {key : Hash} {entry : PendingPair}
      {pair : Pair} (came : e = .attach signed order) (stored : (key, entry) ∈ r.pending)
      (accepted : entry.pair.withSigned signed = .ok pair)
      (bound : (r.attach signed order).2 = .ok pair) :
      Turnover r e none
        { r.stock with pending := Table.insert r.pending key { entry with pair } }
  | submitted {requestIds : List Hash} (came : e = .submitted requestIds) :
      Turnover r e none
        { r.stock with pending := r.pending.filter fun e => !requestIds.contains e.1 }
  | dropped {result? : Option Result} {s : Stock} (drops : r.drops e = true)
      (unpaired : ∀ pair fee l, result? ≠ some (.paired pair fee l))
      (kept : s.pending.Sublist r.pending) : Turnover r e result? s

/-- A step leaves this stock, and its call has been rejected or waits for something else than the
drop of a bundle. -/
structure Still (s : Stock) (step : Relay × Progress) : Prop where
  stock : step.1.stock = s
  rejects : ∀ result, step.2.result? = some result → ∃ err, result = .rejected err
  calm : ∀ stage, step.2.stage? = some stage → stage.drops = false

variable {r : Relay} {s : Stock} {e : Event} {id : CallId} {c : Candidate} {answer : Answer}

/-- Nothing has expired and nothing changes, or the pairs are given back from the oldest on. Who
stands in line does not matter. -/
theorem clear_spec (r : Relay) {f : Lane → Lane} (hf : ∀ lane, (f lane).next = lane.next)
    (id : CallId) (since : Nat) :
    (∀ e ∈ r.pending, r.expired since e.2 = false) ∧
        ((r.modifyLane f).clear id since).1.stock = r.stock ∧
        ((r.modifyLane f).clear id since).2 = [] ∨
      ∃ old, Oldest r since old ∧
        ((r.modifyLane f).clear id since).1.stock =
          (r.shared.rewind old.2.pair.write.nonce.toNat).stock ∧
        ((r.modifyLane f).clear id since).2 = r.shared.above old.2.pair.write.nonce.toNat := by
  have hnext : (f r.writer.lane).next = r.writer.lane.next := hf _
  unfold Relay.clear
  rcases giveBack_spec (r.modifyLane f) fun _ entry => r.expired since entry with
    ⟨hnone, heq⟩ | ⟨old, hold, hpassed, hlowest, heq⟩
  · refine .inl ⟨hnone, ?_⟩
    rw [show (r.modifyLane f).expired since = r.expired since from rfl, heq]
    exact ⟨congrArg (Stock.mk · r.pending) hnext, rfl⟩
  · refine .inr ⟨old, ⟨hold, hpassed, hlowest⟩, ?_⟩
    rw [show (r.modifyLane f).expired since = r.expired since from rfl, heq]
    refine ⟨?_, rfl⟩
    have hrewound : ∀ cutoff, ((f r.writer.lane).rewind cutoff).next =
        (r.writer.lane.rewind cutoff).next := by
      intro cutoff
      rw [Lane.rewind, Lane.rewind, hnext]
    exact congrArg (Stock.mk · _) (hrewound _)

theorem Turnover.unmoved (r : Relay) (e : Event) : Turnover r e none r.stock := by
  refine .kept ?_
  intro result hresult
  cases hresult

theorem rejected_still (hs : r.stock = s) (err : Rejection) : Still s (r, rejected err) := by
  refine ⟨hs, ?_, ?_⟩
  · intro result hresult
    exact ⟨err, (Option.some.inj hresult).symm⟩
  · intro stage hstage
    cases hstage

theorem reject_still (hs : r.stock = s) (c : Candidate) (err : Rejection) :
    Still s (r.reject c err) :=
  rejected_still (r := { r with active := Table.erase r.active c.requestId }) hs err

theorem giveUp_still (hs : r.stock = s) (id : CallId) (c : Candidate) (err : Rejection) :
    Still s (r.giveUp id c err) :=
  reject_still (r := { r with writer := r.writer.abandon id c.requestId }) hs c err

theorem waiting_still (hs : r.stock = s) {stage : Stage} (hcalm : stage.drops = false) :
    Still s (r, .waiting stage) := by
  refine ⟨hs, ?_, ?_⟩
  · intro result hresult
    cases hresult
  · intro stage' hstage
    rwa [← Option.some.inj hstage]

theorem enter_still {state : RequestState} {go : Relay → Candidate → Relay × Progress}
    (hs : r.stock = s) (hgo : ∀ r' c', r'.stock = s → Still s (go r' c')) :
    Still s (r.enter c state go) := by
  unfold Relay.enter
  split
  · exact reject_still hs c _
  · exact hgo _ _ hs

theorem afterDrafting_still {step : CacheWriter × DraftResult}
    (hs : ({ r with writer := step.1 } : Relay).stock = s) :
    Still s (r.afterDrafting id c answer step) := by
  obtain ⟨w, result⟩ := step
  unfold Relay.afterDrafting
  cases result with
  | waiting stage => exact waiting_still hs rfl
  | failed err => exact reject_still hs c _
  | prepared p =>
    simp only
    split
    · exact waiting_still hs rfl
    · split
      · exact giveUp_still hs id c _
      · refine waiting_still ?_ rfl
        exact hs

theorem stock_of_confined {w : CacheWriter} {key : Hash}
    (h : Confined key r.shared { r with writer := w : Relay }.shared) :
    ({ r with writer := w } : Relay).stock = r.stock :=
  congrArg (Stock.mk · r.pending) h.next.eq

theorem startDrafting_still (hs : r.stock = s) (id : CallId) (c : Candidate) (answer : Answer) :
    Still s (r.startDrafting id c answer) :=
  afterDrafting_still ((stock_of_confined (start_touches r id (c.draft answer))).trans hs)

theorem afterResponse_still (r : Relay) (id : CallId) (c : Candidate) (registration : Registration)
    (reply : Except ServiceError ComputeResponse) :
    Still r.stock (r.afterResponse id c registration reply) := by
  cases reply with
  | ok response =>
    simp only [Relay.afterResponse]
    refine enter_still rfl fun r' c' hs => ?_
    split
    · exact reject_still hs c' _
    · exact enter_still hs fun r'' c'' hs' => startDrafting_still hs' id c'' _
  | error err =>
    simp only [Relay.afterResponse]
    refine enter_still rfl fun r' c' hs => ?_
    split
    · exact reject_still hs c' _
    · exact startDrafting_still hs id _ _

theorem takeOn_still (r : Relay) (op : Operation) (request : ComputeRequest) (block : BlockContext)
    (deadline : Nat) : Still r.stock (r.takeOn op request block deadline) := by
  unfold Relay.takeOn
  simp only
  split
  · exact rejected_still rfl _
  · exact enter_still rfl fun r' c' hs => waiting_still hs rfl

/-- A step turns the stock over as its event allows, and has its call drop a bundle only if it did
so before. -/
structure Turns (r : Relay) (e : Event) (step : Relay × Progress) : Prop where
  turnover : Turnover r e step.2.result? step.1.stock
  calm : r.drops e = false → ∀ stage, step.2.stage? = some stage → stage.drops = false

namespace Turns

variable {step : Relay × Progress}

theorem of_still (hs : Still r.stock step) : Turns r e step := by
  refine ⟨?_, fun _ => hs.calm⟩
  rw [hs.stock]
  refine .kept fun result hresult => ?_
  obtain ⟨err, rfl⟩ := hs.rejects result hresult
  rfl

theorem of_learned {nonce : Word} (taught : r.teaches? e = some nonce)
    (hs : Still { r.stock with next := some nonce } step) : Turns r e step := by
  refine ⟨?_, fun _ => hs.calm⟩
  rw [hs.stock]
  refine .learned taught fun result hresult => ?_
  obtain ⟨err, rfl⟩ := hs.rejects result hresult
  rfl

theorem of_waiting {r' : Relay} {stage : Stage} (hs : r'.stock = r.stock)
    (hcalm : stage.drops = false) : Turns r e (r', .waiting stage) :=
  of_still (waiting_still hs hcalm)

theorem of_finished {result : Result} {r' : Relay} (h : Turnover r e (some result) r'.stock) :
    Turns r e (r', .finished result) := by
  refine ⟨h, ?_⟩
  intro _ stage hstage
  cases hstage

theorem of_quiet {result : Result} (quiet : result.isQuiet = true) {r' : Relay}
    (hs : r'.stock = r.stock) : Turns r e (r', .finished result) := by
  refine .of_finished ?_
  rw [hs]
  refine .kept fun result' hresult => ?_
  rwa [← Option.some.inj hresult]

theorem of_unmoved {stage : Stage} (hdrops : r.drops e = false → stage.drops = false) :
    Turns r e (r, .waiting stage) :=
  ⟨.unmoved r e, fun h _ hstage => Option.some.inj hstage ▸ hdrops h⟩

theorem of_dropped (hdrops : r.drops e = true) (unpaired : step.2.isPaired = false)
    (kept : step.1.pending.Sublist r.pending) : Turns r e step := by
  refine ⟨.dropped hdrops ?_ kept, ?_⟩
  · intro pair fee l hresult
    rw [Progress.result?_eq_some.mp hresult] at unpaired
    cases unpaired
  · intro hcalm
    cases hcalm.symm.trans hdrops

end Turns

theorem clear_takeOn_turns {f : Lane → Lane} (hf : ∀ lane, (f lane).next = lane.next) (id : CallId)
    (since : Nat) (op : Operation) (request : ComputeRequest) (block : BlockContext)
    (deadline : Nat) :
    Turns r e (((r.modifyLane f).clear id since).1.takeOn op request block deadline) := by
  have hs := takeOn_still ((r.modifyLane f).clear id since).1 op request block deadline
  rcases clear_spec r hf id since with ⟨-, hstock, -⟩ | ⟨old, holdest, hstock, -⟩
  · rw [hstock] at hs
    exact .of_still hs
  · rw [hstock] at hs
    refine ⟨?_, fun _ => hs.calm⟩
    rw [hs.stock]
    exact .expired holdest fun result hresult => .inl (hs.rejects result hresult)

theorem clear_released_turns {f : Lane → Lane} (hf : ∀ lane, (f lane).next = lane.next)
    (id : CallId) (since : Nat) :
    Turns r e (((r.modifyLane f).clear id since).1,
      .finished (.released ((r.modifyLane f).clear id since).2)) := by
  rcases clear_spec r hf id since with ⟨-, hstock, hdropped⟩ | ⟨old, holdest, hstock, hdropped⟩
  · rw [hdropped]
    exact .of_quiet rfl hstock
  · refine .of_finished ?_
    rw [hstock, hdropped]
    exact .expired holdest fun result hresult => .inr (Option.some.inj hresult).symm

theorem intercept_turns (r : Relay) (id : CallId) (op : Operation) (outcome : Simulation)
    (deadline : Nat) : Turns r e (r.intercept id op outcome deadline) := by
  unfold Relay.intercept
  split
  · exact .of_quiet rfl rfl
  · exact .of_quiet rfl rfl
  · split
    · simp only
      split
      · exact clear_takeOn_turns (f := (·.join id)) (fun _ => rfl) id r.now op _ _ deadline
      · exact .of_waiting rfl rfl
    · exact .of_still (takeOn_still r op _ _ deadline)

theorem giveBack_sublist (r : Relay) (selected : Hash → PendingPair → Bool) :
    (r.giveBack selected).1.pending.Sublist r.pending := by
  unfold Relay.giveBack
  split
  · exact List.Sublist.refl _
  · exact List.filter_sublist

theorem dropPairs_turns (hdrops : r.drops e = true) (r' : Relay) (hpending : r'.pending = r.pending)
    (id : CallId) (requestIds : List Hash) : Turns r e (r'.dropPairs id requestIds) := by
  have hgiven := giveBack_sublist r' fun key _ => requestIds.contains key
  have hkept := (List.filter_sublist (p := fun e => !requestIds.contains e.1)).trans hgiven
  rw [hpending] at hkept
  unfold Relay.dropPairs
  simp only
  split
  · exact .of_dropped hdrops rfl hkept
  · exact .of_dropped hdrops rfl hkept

theorem begin_turns (r : Relay) (id : CallId) (job : Job) :
    Turns r (.start id job) (r.begin id job) := by
  cases job with
  | process op => exact .of_waiting rfl rfl
  | processSimulated op outcome => exact intercept_turns r id op outcome _
  | expire =>
    simp only [Relay.begin]
    split
    · split
      · exact clear_released_turns (f := (·.join id)) (fun _ => rfl) id r.now
      · exact .of_waiting rfl rfl
    · exact .of_quiet rfl rfl
  | drop requestIds =>
    simp only [Relay.begin]
    split
    · have hdrops : r.drops (.start id (.drop requestIds)) = true := rfl
      exact dropPairs_turns hdrops (r.modifyLane (·.join id)) rfl id requestIds
    · exact .of_dropped rfl rfl (List.Sublist.refl _)

theorem resumeTurn_turns {stage : Stage} (hs : Table.get? r.calls id = some stage) :
    Turns r (.turn id) (r.resumeTurn id stage) := by
  have hdrops : r.drops (.turn id) = stage.drops := by simp [Relay.drops, hs]
  have hsame : ∀ lane : Lane, ((fun lane => lane) lane).next = lane.next := fun _ => rfl
  cases stage with
  | clearing since op request block deadline =>
    exact clear_takeOn_turns hsame id since op request block deadline
  | expiring since => exact clear_released_turns hsame id since
  | dropping requestIds => exact dropPairs_turns hdrops r rfl id requestIds
  | resyncing released => exact .of_dropped hdrops rfl (List.Sublist.refl _)
  | drafting c answer stage =>
    cases stage with
    | queued =>
      have hw := stock_of_confined (takeTurn_touches r id (c.draft answer))
      exact .of_still (afterDrafting_still hw)
    | reading => exact .of_waiting rfl rfl
    | simulating write => exact .of_waiting rfl rfl
  | _ => exact .of_waiting rfl rfl

theorem afterResimulation_turns {prepared : Prepared} {reply : Except LedgerError Simulation}
    (hs : Table.get? r.calls id = some (.resimulating c answer prepared))
    (he : e = .reply id (.simulation reply)) :
    Turns r e (r.afterResimulation id c answer prepared reply) := by
  have hgive : ∀ err, Turns r e (r.giveUp id c err) :=
    fun err => .of_still (giveUp_still rfl id c err)
  cases reply with
  | error err => exact hgive _
  | ok outcome =>
    simp only [Relay.afterResimulation]
    split
    · exact hgive _
    · rename_i fee hfee
      split
      · exact hgive _
      · rename_i pair hpair
        have hfinishes : Finishes r e id c answer prepared outcome pair fee :=
          ⟨hs, he, hfee, hpair⟩
        obtain ⟨-, -, rfl⟩ := Pair.create_eq_ok_iff.mp hpair
        split
        · exact .of_finished (.finished _ hfinishes)
        · split
          · exact hgive _
          · exact .of_finished (.finished _ hfinishes)

theorem resumeReply_turns {stage : Stage} (hs : Table.get? r.calls id = some stage) (reply : Reply)
    (hx : stage.expects reply = true) :
    Turns r (.reply id reply) (r.resumeReply id stage reply) := by
  unfold Relay.resumeReply
  split
  · exact .of_waiting rfl rfl
  · exact .of_quiet rfl rfl
  · exact intercept_turns r id _ _ _
  · exact .of_quiet rfl rfl
  · rename_i c row
    split
    · exact .of_still (reject_still rfl c _)
    · exact .of_still (enter_still rfl fun r' c' hs' => waiting_still hs' rfl)
  · exact .of_still (reject_still rfl _ _)
  · exact .of_still (afterResponse_still r id _ _ _)
  · rename_i c answer reply
    cases reply with
    | error err => exact .of_still (afterDrafting_still rfl)
    | ok nonce =>
      have taught : r.teaches? (.reply id (.nonce (.ok nonce))) = some nonce := by
        simp [teaches?, hs]
      let r' : Relay := r.modifyLane (·.learn nonce)
      have hw := stock_of_confined (withNonce_touches r' id (c.draft answer) nonce)
      exact .of_learned taught (afterDrafting_still hw)
  · rename_i c answer write reply
    have hw := stock_of_confined (simulated_touches r id (c.draft answer) write reply)
    exact .of_still (afterDrafting_still hw)
  · exact afterResimulation_turns hs rfl
  · rename_i hother
    exact .of_unmoved fun _ => by cases stage <;> first | rfl | cases hx

theorem resumeTimeout_turns {stage : Stage} (r : Relay) (id : CallId)
    (hd : stage.deadline?.any (· ≤ r.now) = true) :
    Turns r (.timeout id) (r.resumeTimeout id stage) := by
  cases stage with
  | readingBlock => exact .of_quiet rfl rfl
  | simulating => exact .of_quiet rfl rfl
  | resolving c => exact .of_still (reject_still rfl c _)
  | asking c registration =>
    exact .of_still (afterResponse_still r id c registration (.error .timeout))
  | drafting c => exact .of_still (giveUp_still rfl id c _)
  | resimulating c => exact .of_still (giveUp_still rfl id c _)
  | _ => cases hd

theorem settle_stock (id : CallId) (step : Relay × Progress) :
    (settle id step).1.stock = step.1.stock := by
  obtain ⟨r, p⟩ := step
  cases p <;> rfl

theorem Resumed.turns {stage : Stage} {step : Relay × Progress} (h : Resumed r id stage e step)
    (hs : Table.get? r.calls id = some stage) : Turns r e step := by
  cases h with
  | turn => exact resumeTurn_turns hs
  | reply expected => exact resumeReply_turns hs _ expected
  | timeout passed => exact resumeTimeout_turns r id passed

theorem attach_turnover (r : Relay) (signed : Operation) (order : List Hash) :
    Turnover r (.attach signed order) none (r.attach signed order).1.stock := by
  cases hfind : (r.arranged order).find? fun e =>
      e.2.pair.served.sender == signed.sender && e.2.pair.served.nonce == signed.nonce with
  | none =>
    simp only [Relay.attach, hfind]
    exact .unmoved _ _
  | some found =>
    obtain ⟨key, entry⟩ := found
    cases haccept : entry.pair.withSigned signed with
    | error err =>
      simp only [Relay.attach, hfind, haccept]
      exact .unmoved _ _
    | ok pair =>
      have hbound : (r.attach signed order).2 = .ok pair := by
        simp only [Relay.attach, hfind, haccept]
      simp only [Relay.attach, hfind, haccept]
      have hstored := mem_arranged.mp (List.mem_of_find?_eq_some hfind)
      exact .attached rfl hstored haccept hbound

theorem step_turnover (r : Relay) (e : Event) : Turnover r e (r.step e).2 (r.step e).1.stock := by
  rcases step_cases r e with ⟨id, -, h⟩ | ⟨-, h⟩
  · generalize r.step e = out at h
    cases h with
    | started job unused =>
      rw [settle_result, settle_stock]
      exact (begin_turns r id job).turnover
    | resumed found resumed =>
      rw [settle_result, settle_stock]
      exact (resumed.turns found).turnover
    | @abandoned stage found =>
      have hstock : (r.abandonStage id stage).stock = r.stock := by cases stage <;> rfl
      show Turnover r (.abandon id) none (r.abandonStage id stage).stock
      rw [hstock]
      exact .unmoved _ _
  · -- what was answered to a new signature is not among the cases of an unaddressed event
    by_cases hattach : ∃ signed order, e = .attach signed order
    · obtain ⟨signed, order, rfl⟩ := hattach
      exact attach_turnover r signed order
    · generalize r.step e = out at h
      cases h with
      | ignored => exact .unmoved _ _
      | attached => exact absurd ⟨_, _, rfl⟩ hattach
      | submitted requestIds => exact .submitted rfl
      | ticked => exact .unmoved _ _

theorem Turnover.nodup_keys {result? : Option Result} (h : Turnover r e result? s)
    (hk : (Table.keys r.pending).Nodup) : (Table.keys s.pending).Nodup := by
  cases h with
  | kept => exact hk
  | learned => exact hk
  | expired => exact Table.nodup_keys_filter _ hk
  | finished => exact Table.nodup_keys_insert _ _ hk
  | attached => exact Table.nodup_keys_insert _ _ hk
  | submitted => exact Table.nodup_keys_filter _ hk
  | dropped _ _ kept => exact hk.sublist (kept.map Prod.fst)

theorem Turnover.finishes {pair : Pair} {fee : FeeAdjustment} {l : Lifecycle}
    (h : Turnover r e (some (.paired pair fee l)) s) :
    (∃ id c answer prepared outcome, Finishes r e id c answer prepared outcome pair fee) ∧
      s = ⟨some (pair.write.nonce + 1), Table.insert r.pending pair.requestId ⟨pair, r.now⟩⟩ := by
  cases h with
  | kept quiet => cases quiet _ rfl
  | learned taught quiet => cases quiet _ rfl
  | expired oldest named =>
    rcases named _ rfl with ⟨err, herr⟩ | hall
    · cases herr
    · cases hall
  | finished l finishes => exact ⟨⟨_, _, _, _, _, finishes⟩, rfl⟩
  | dropped drops unpaired => exact absurd rfl (unpaired pair fee l)

theorem Turnover.mem_cases {result? : Option Result} (h : Turnover r e result? s)
    {entry : Hash × PendingPair} (hin : entry ∈ s.pending) :
    entry ∈ r.pending ∨
      (∃ signed order old bound, e = .attach signed order ∧ (entry.1, old) ∈ r.pending ∧
        old.pair.withSigned signed = .ok bound ∧ (r.attach signed order).2 = .ok bound ∧
        entry.2.pair = bound) ∨
      ∃ pair fee l, result? = some (.paired pair fee l) ∧
        entry = (pair.requestId, ⟨pair, r.now⟩) := by
  cases h with
  | kept => exact .inl hin
  | learned => exact .inl hin
  | expired => exact .inl (List.mem_filter.mp hin).1
  | finished l =>
    rcases Table.mem_of_mem_insert hin with hnew | hold
    · exact .inr (.inr ⟨_, _, l, rfl, hnew⟩)
    · exact .inl hold
  | attached came stored accepted bound =>
    rcases Table.mem_of_mem_insert hin with rfl | hold
    · exact .inr (.inl ⟨_, _, _, _, came, stored, accepted, bound, rfl⟩)
    · exact .inl hold
  | submitted => exact .inl (List.mem_filter.mp hin).1
  | dropped _ _ kept => exact .inl (kept.subset hin)

theorem run_nodup_keys (config : Config) (signer : Signer) (es : List Event) :
    (Table.keys ((idle config signer).after es).pending).Nodup := by
  induction es using List.reverseRecOn with
  | nil => exact List.nodup_nil
  | append_singleton es e ih =>
    rw [after_concat]
    exact (step_turnover _ e).nodup_keys ih

/-- No call drops a bundle until one is started for that. -/
def Undropped (r : Relay) : Prop :=
  ∀ id stage, Table.get? r.calls id = some stage → stage.drops = false

theorem Undropped.drops_eq (hu : Undropped r) (hjob : ∀ id ids, e ≠ .start id (.drop ids)) :
    r.drops e = false := by
  cases e with
  | start id job =>
    cases job with
    | drop ids => exact absurd rfl (hjob id ids)
    | _ => rfl
  | turn id =>
    cases hs : Table.get? r.calls id with
    | none => simp [Relay.drops, hs]
    | some stage => simp [Relay.drops, hs, hu id stage hs]
  | _ => rfl

theorem step_undropped (hu : Undropped r) (hdrops : r.drops e = false) :
    Undropped (r.step e).1 := by
  have hsettle : ∀ {id step}, Turns r e step → step.1.calls = r.calls →
      Undropped (settle id step).1 := by
    intro id step ht hcalls k stage hk
    rw [get?_settle] at hk
    split at hk
    · exact ht.calm hdrops stage hk
    · exact hu k stage (hcalls ▸ hk)
  rcases step_cases r e with ⟨id, -, h⟩ | ⟨-, h⟩
  · generalize r.step e = out at h
    cases h with
    | started job unused => exact hsettle (begin_turns r id job) (begin_same r id job).2
    | resumed found resumed => exact hsettle (resumed.turns found) resumed.goes.calls
    | abandoned found =>
      intro k stage hk
      rw [Table.get?_erase] at hk
      split at hk
      · cases hk
      · exact hu k stage hk
  · generalize r.step e = out at h
    cases h <;> exact hu

end ComputeRelay
