import ComputeRelay.Proofs.Run

/-! What an event does to a relay. It starts the one call that it is addressed to, takes it further,
or ends it without a result; and if it is addressed to no call, all calls stay as they are. -/

namespace ComputeRelay

open Relay

namespace Progress

def stage? : Progress → Option Stage
  | .waiting stage => some stage
  | .finished _ => none

def result? : Progress → Option Result
  | .waiting _ => none
  | .finished result => some result

theorem stage?_eq_some {p : Progress} {stage : Stage} :
    p.stage? = some stage ↔ p = .waiting stage := by
  cases p <;> simp [stage?]

theorem result?_eq_some {p : Progress} {result : Result} :
    p.result? = some result ↔ p = .finished result := by
  cases p <;> simp [result?]

end Progress

variable {r : Relay} {e : Event} {id : CallId}

theorem settle_now (id : CallId) (step : Relay × Progress) :
    (settle id step).1.now = step.1.now := by
  obtain ⟨r, p⟩ := step
  cases p <;> rfl

theorem settle_result (id : CallId) (step : Relay × Progress) :
    (settle id step).2 = step.2.result? := by
  obtain ⟨r, p⟩ := step
  cases p <;> rfl

theorem eq_finished_of_settle {step : Relay × Progress} {result : Result}
    (h : (settle id step).2 = some result) : step.2 = .finished result := by
  rw [settle_result] at h
  exact Progress.result?_eq_some.mp h

theorem get?_settle (id k : CallId) (step : Relay × Progress) :
    Table.get? (settle id step).1.calls k =
      if id = k then step.2.stage? else Table.get? step.1.calls k := by
  obtain ⟨r, p⟩ := step
  cases p with
  | waiting stage => exact Table.get?_insert _ _ _ _
  | finished result => exact Table.get?_erase _ _ _

theorem resumeReply_unexpected {stage : Stage} {reply : Reply}
    (hx : stage.expects reply = false) (r : Relay) (id : CallId) :
    r.resumeReply id stage reply = (r, .waiting stage) := by
  unfold Relay.resumeReply
  split <;> first | rfl | cases hx

theorem settle_unmoved {stage : Stage} (hs : Table.get? r.calls id = some stage) :
    settle id (r, .waiting stage) = (r, none) := by
  simp only [settle, Table.insert_of_get? hs]

def elapsed : Event → Nat
  | .tick ms => ms
  | _ => 0

/-- An event takes a call further that it finds at a stage. -/
inductive Resumed (r : Relay) (id : CallId) (stage : Stage) : Event → Relay × Progress → Prop
  | turn (first : r.writer.lane.isHeldBy id = true) :
      Resumed r id stage (.turn id) (r.resumeTurn id stage)
  | reply {reply : Reply} (expected : stage.expects reply = true) :
      Resumed r id stage (.reply id reply) (r.resumeReply id stage reply)
  | timeout (passed : stage.deadline?.any (· ≤ r.now) = true) :
      Resumed r id stage (.timeout id) (r.resumeTimeout id stage)

inductive Addressed (r : Relay) (id : CallId) : Event → Relay × Option Result → Prop
  | started (job : Job) (unused : Table.get? r.calls id = none) :
      Addressed r id (.start id job) (settle id (r.begin id job))
  | resumed {stage : Stage} {e : Event} {step : Relay × Progress}
      (found : Table.get? r.calls id = some stage) (resumed : Resumed r id stage e step) :
      Addressed r id e (settle id step)
  | abandoned {stage : Stage} (found : Table.get? r.calls id = some stage) :
      Addressed r id (.abandon id)
        ({ r.abandonStage id stage with calls := Table.erase r.calls id }, none)

/-- An event that is addressed to no call is ignored, or it concerns the pending pairs, the ids that
are forgotten by name, or the clock. -/
inductive Unaddressed (r : Relay) : Event → Relay × Option Result → Prop
  | ignored {e : Event} (still : elapsed e = 0) : Unaddressed r e (r, none)
  | attached {signed : Operation} {order : List Hash} {key : Hash} {entry : PendingPair}
      {pair : Pair}
      (stored : (key, entry) ∈ r.pending) (accepted : entry.pair.withSigned signed = .ok pair) :
      Unaddressed r (.attach signed order)
        ({ r with pending := Table.insert r.pending key { entry with pair } }, none)
  | submitted (requestIds : List Hash) :
      Unaddressed r (.submitted requestIds) (r.forget requestIds, none)
  | ticked (ms : Nat) : Unaddressed r (.tick ms) ({ r with now := r.now + ms }, none)

theorem attach_unaddressed (r : Relay) (signed : Operation) (order : List Hash) :
    Unaddressed r (.attach signed order) ((r.attach signed order).1, none) := by
  unfold Relay.attach
  split
  · exact .ignored rfl
  · rename_i key entry hfind
    split
    · exact .ignored rfl
    · rename_i pair hpair
      exact .attached (mem_arranged.mp (List.mem_of_find?_eq_some hfind)) hpair

theorem ignored_cases (ha : r.addressee? e = none) (still : elapsed e = 0)
    (hstep : r.step e = (r, none)) :
    (∃ id, r.addressee? e = some id ∧ Addressed r id e (r.step e)) ∨
      (r.addressee? e = none ∧ Unaddressed r e (r.step e)) := by
  rw [hstep]
  exact .inr ⟨ha, .ignored still⟩

theorem step_cases (r : Relay) (e : Event) :
    (∃ id, r.addressee? e = some id ∧ Addressed r id e (r.step e)) ∨
      (r.addressee? e = none ∧ Unaddressed r e (r.step e)) := by
  cases e with
  | start id job =>
    cases hs : Table.get? r.calls id with
    | none =>
      refine .inl ⟨id, addressee_start job hs, ?_⟩
      simpa [step, Table.contains, hs] using Addressed.started job hs
    | some stage =>
      exact ignored_cases (by simp [addressee?, Table.contains, hs]) rfl
        (by simp [step, Table.contains, hs])
  | turn id =>
    cases hs : Table.get? r.calls id with
    | none =>
      exact ignored_cases (by simp [addressee?, Table.contains, hs]) rfl (by simp [step, hs])
    | some stage =>
      cases hfirst : r.writer.lane.isHeldBy id with
      | true =>
        refine .inl ⟨id, by simp [addressee?, Table.contains, hs, hfirst], ?_⟩
        simpa [step, hs, hfirst] using Addressed.resumed hs (.turn hfirst)
      | false => exact ignored_cases (by simp [addressee?, hfirst]) rfl (by simp [step, hs, hfirst])
  | reply id reply =>
    cases hs : Table.get? r.calls id with
    | none => exact ignored_cases (by simp [addressee?, hs]) rfl (by simp [step, hs])
    | some stage =>
      cases hx : stage.expects reply with
      | true =>
        refine .inl ⟨id, addressee_reply hs hx, ?_⟩
        simpa [step, hs] using Addressed.resumed hs (.reply hx)
      | false =>
        refine ignored_cases (by simp [addressee?, hs, hx]) rfl ?_
        simp only [step, hs, resumeReply_unexpected hx, settle_unmoved hs]
  | timeout id =>
    cases hs : Table.get? r.calls id with
    | none => exact ignored_cases (by simp [addressee?, hs]) rfl (by simp [step, hs])
    | some stage =>
      cases hd : stage.deadline?.any (· ≤ r.now) with
      | true =>
        refine .inl ⟨id, by simp [addressee?, hs, hd], ?_⟩
        simpa [step, hs, hd] using Addressed.resumed hs (.timeout hd)
      | false => exact ignored_cases (by simp [addressee?, hs, hd]) rfl (by simp [step, hs, hd])
  | abandon id =>
    cases hs : Table.get? r.calls id with
    | none =>
      exact ignored_cases (by simp [addressee?, Table.contains, hs]) rfl (by simp [step, hs])
    | some stage =>
      refine .inl ⟨id, by simp [addressee?, Table.contains, hs], ?_⟩
      simpa [step, hs] using Addressed.abandoned hs
  | attach signed order => exact .inr ⟨rfl, attach_unaddressed r signed order⟩
  | submitted requestIds => exact .inr ⟨rfl, .submitted requestIds⟩
  | tick ms => exact .inr ⟨rfl, .ticked ms⟩

theorem step_addressed (ha : r.addressee? e = some id) : Addressed r id e (r.step e) := by
  rcases step_cases r e with ⟨id', ha', h⟩ | ⟨hnone, -⟩
  · rwa [Option.some.inj (ha.symm.trans ha')]
  · cases ha.symm.trans hnone

theorem step_unaddressed (ha : r.addressee? e = none) : Unaddressed r e (r.step e) := by
  rcases step_cases r e with ⟨id, hsome, -⟩ | ⟨-, h⟩
  · cases ha.symm.trans hsome
  · exact h

/-- A call that is abandoned ends without a result. -/
theorem ne_abandon_of_result {result : Result} (h : (r.step e).2 = some result) (id : CallId) :
    e ≠ .abandon id := by
  rintro rfl
  simp only [step] at h
  split at h <;> cases h

/-- An event takes the call further that it is addressed to, unless it abandons it. -/
theorem step_resumed {stage : Stage} (ha : r.addressee? e = some id)
    (hs : Table.get? r.calls id = some stage) (hkept : e ≠ .abandon id) :
    ∃ step, Resumed r id stage e step ∧ r.step e = settle id step := by
  have h := step_addressed ha
  generalize r.step e = out at h
  cases h with
  | started job unused => cases hs.symm.trans unused
  | resumed found resumed =>
    obtain rfl := Option.some.inj (found.symm.trans hs)
    exact ⟨_, resumed, rfl⟩
  | abandoned => exact absurd rfl hkept

theorem hear_of_none (ha : r.addressee? e = none) (log : List Event) : r.hear id log e = log :=
  if_neg (by simp [ha])

theorem Resumed.hear_eq {stage : Stage} {step : Relay × Progress} (h : Resumed r id stage e step)
    (ha : r.addressee? e = some id) (log : List Event) : r.hear id log e = log ++ [e] := by
  unfold hear
  rw [if_pos ha]
  cases h <;> rfl

end ComputeRelay
