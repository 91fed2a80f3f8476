import ComputeRelay.Proofs.WorkingSets

/-! Calls that are abandoned. What such a call holds of the lane and of the reservations is free
again, and nothing else changes; so the row of a request that was worked on stays. Nobody owns it,
and as long as the id is not forgotten by name, every later call for the request is turned away. -/

namespace ComputeRelay

open Relay

variable {config : Config} {signer : Signer} {es : List Event} {id : CallId} {stage : Stage}

/-- The call is gone and out of the line, what it had reserved is free again, and nothing else has
changed. -/
structure Vacated (id : CallId) (r r' : Relay) : Prop where
  calls : ∀ k, Table.get? r'.calls k = if id = k then none else Table.get? r.calls k
  line : r'.writer.lane = r.writer.lane.leave id
  left : id ∉ r'.writer.lane.line
  reserved : ∀ key, key ∈ r'.writer.reserved ↔
    key ∈ r.writer.reserved ∧ (r.holdOf id).reserved? ≠ some key
  active : r'.active = r.active
  pending : r'.pending = r.pending
  now : r'.now = r.now

theorem Lane.leave_of_not_mem {l : Lane} (h : id ∉ l.line) : l.leave id = l := by
  rw [Lane.leave, List.erase_of_not_mem h]

theorem CacheWriter.mem_reserved_abandon {w : CacheWriter} {key key' : Hash} :
    key' ∈ (w.abandon id key).reserved ↔ key' ∈ w.reserved ∧ some key ≠ some key' := by
  simp [abandon, release, eq_comm (a := key)]

theorem abandonStage_vacates {r : Relay} (hs : Table.get? r.calls id = some stage)
    (hi : InLine r.shared r.holdOf) :
    Vacated id r { r.abandonStage id stage with calls := Table.erase r.calls id } := by
  have hh : r.holdOf id = stage.hold := by simp [holdOf, hs]
  have hline : (r.abandonStage id stage).writer.lane = r.writer.lane.leave id := by
    -- a call outside the lane is not in line, so that leaving changes nothing
    have hout : stage.hold.place = .outside → r.writer.lane.leave id = r.writer.lane := by
      intro hplace
      refine Lane.leave_of_not_mem fun hin => (hi.mem_iff id).mp hin ?_
      rw [hh, hplace]
    cases stage with
    | readingBlock => exact (hout rfl).symm
    | simulating => exact (hout rfl).symm
    | resolving => exact (hout rfl).symm
    | asking => exact (hout rfl).symm
    | _ => rfl
  have hreserved : ∀ key, key ∈ (r.abandonStage id stage).writer.reserved ↔
      key ∈ r.writer.reserved ∧ stage.hold.reserved? ≠ some key := by
    intro key
    cases stage with
    | drafting => exact CacheWriter.mem_reserved_abandon
    | resimulating => exact CacheWriter.mem_reserved_abandon
    | _ => simp [abandonStage, modifyLane, Stage.hold]
  refine ⟨fun k => Table.get?_erase _ _ _, hline, ?_, ?_, ?_, ?_, ?_⟩
  · show id ∉ (r.abandonStage id stage).writer.lane.line
    rw [hline]
    exact fun hin => ((hi.nodup.mem_erase_iff).mp hin).1 rfl
  · rw [hh]
    exact hreserved
  · cases stage <;> rfl
  · cases stage <;> rfl
  · cases stage <;> rfl

theorem run_vacates (hs : Table.get? ((idle config signer).after es).calls id = some stage) :
    Vacated id ((idle config signer).after es)
      ((idle config signer).after (es ++ [.abandon id])) := by
  have hstep : ((idle config signer).after es).step (.abandon id) =
      ({ ((idle config signer).after es).abandonStage id stage with
        calls := Table.erase ((idle config signer).after es).calls id }, none) := by
    simp only [step, hs]
  rw [after_concat, hstep]
  exact abandonStage_vacates hs (run_inLine config signer es)

/-- The row of a request that no call works on and that has no pending pair. -/
structure Stray (key : Hash) (state : RequestState) (s : Shared) (f : CallId → Hold) : Prop where
  row : Table.get? s.active key = some state
  unheld : ∀ k st, (f k).row? ≠ some (key, st)
  unpaired : key ∉ Table.keys s.pending

namespace Stray

variable {key : Hash} {state : RequestState} {s s' : Shared} {f : CallId → Hold} {h h' : Hold}

theorem move (hs : Stray key state s (Function.update f id h))
    (hrow : Table.get? s'.active key = Table.get? s.active key)
    (hheld : ∀ st, h'.row? = some (key, st) → h.row? = some (key, st))
    (hpaired : key ∈ Table.keys s'.pending → key ∈ Table.keys s.pending) :
    Stray key state s' (Function.update f id h') := by
  refine ⟨hrow.trans hs.row, ?_, fun hin => hs.unpaired (hpaired hin)⟩
  intro k st
  have hk := hs.unheld k st
  by_cases heq : k = id
  · subst heq
    rw [Function.update_self] at hk ⊢
    exact fun hnew => hk (hheld st hnew)
  · rwa [Function.update_of_ne heq] at hk ⊢

theorem forget (hs : Stray key state s (Function.update f id h)) {requestIds : List Hash}
    (hout : key ∉ requestIds) :
    Stray key state (s.forget requestIds) (Function.update f id h) := by
  refine hs.move ?_ (fun _ hrow => hrow) fun hin => (Shared.mem_keys_forget.mp hin).1
  rw [Shared.get?_active_forget, if_neg hout]

theorem kept {r : Relay} {e : Event} {log : List Event} (hout : key ∉ r.forgets e) :
    KeptByMoves r e id log (Stray key state) := by
  intro s s' h h' hm hs
  have hother : ∀ {key' : Hash} {st : RequestState}, h.row? = some (key', st) → key' ≠ key := by
    rintro key' st hrow rfl
    exact hs.unheld id st (by simpa using hrow)
  cases hm with
  | @rewind _ _ cutoff waiting first fits =>
    have hs' : Stray key state { s with lane := s.lane.rewind (BitVec.ofNat 256 cutoff) }
        (Function.update r.holdOf id h) := hs.move rfl (fun _ hrow => hrow) fun hin => hin
    exact hs'.forget fun hin => hs.unpaired (s.above_subset cutoff hin)
  | forget => exact hs.forget hout
  | @enroll _ _ key' free new =>
    have hne : key' ≠ key := by
      rintro rfl
      cases new.symm.trans hs.row
    refine hs.move ?_ ?_ fun hin => hin
    · simp [Table.get?_insert, hne]
    · rintro st ⟨⟩
      exact absurd rfl hne
  | record row =>
    refine hs.move ?_ ?_ fun hin => hin
    · simp [Table.get?_insert, hother row]
    · rintro st ⟨⟩
      exact absurd rfl (hother row)
  | close row free =>
    exact hs.move (by simp [Table.get?_erase, hother row]) (by simp) fun hin => hin
  | finish now row held granted before backed =>
    refine hs.move rfl (by simp) fun hin => ?_
    exact (Table.mem_keys_insert.mp hin).resolve_left fun heq => hother row heq.symm
  | attach stored accepted =>
    refine hs.move rfl (fun _ hrow => hrow) fun hin => ?_
    rcases Table.mem_keys_insert.mp hin with rfl | hin
    · exact List.mem_map.mpr ⟨_, stored, rfl⟩
    · exact hin
  | letGo row free gone => exact hs.move rfl (by simp) fun hin => hin
  | _ => exact hs.move rfl (fun _ hrow => hrow) fun hin => hin

end Stray

theorem run_stray {key : Hash} {state : RequestState} (more : List Event)
    (hs : Stray key state ((idle config signer).after es).shared
      ((idle config signer).after es).holdOf)
    (hkept : Throughout (fun r e => key ∉ r.forgets e) ((idle config signer).after es) more) :
    Stray key state ((idle config signer).after (es ++ more)).shared
      ((idle config signer).after (es ++ more)).holdOf := by
  induction more using List.reverseRecOn with
  | nil => rwa [List.append_nil]
  | append_singleton more e ih =>
    obtain ⟨hmore, hlast⟩ := throughout_concat.mp hkept
    rw [← after_append] at hlast
    rw [← List.append_assoc]
    exact step_keeps (fun _ => Stray.kept hlast) (ih hmore)

/-- While no pair has expired, a call for an operation of the request is turned away at once as a
duplicate. -/
def TurnsAway (r : Relay) (key : Hash) : Prop :=
  ∀ k op block outcome request, Table.get? r.calls k = none →
    (r.pending.any fun e => r.expired r.now e.2) = false →
    detect op outcome = .ok (some request) → request.requestId = key →
    ((r.after [.start k (.process op), .reply k (.block (.ok block))]).step
      (.reply k (.simulation (.ok outcome)))).2 = some (.rejected (.write (.duplicateRequest key)))

theorem intercept_turnedAway (r : Relay) (id : CallId) {op : Operation} {outcome : Simulation}
    {request : ComputeRequest} (hfresh : (r.pending.any fun e => r.expired r.now e.2) = false)
    (hd : detect op outcome = .ok (some request))
    (hrow : Table.contains r.active request.requestId = true) (deadline : Nat) :
    r.intercept id op outcome deadline =
      (r, rejected (.write (.duplicateRequest request.requestId))) := by
  simp [intercept, hd, hfresh, takeOn, hrow]

theorem turnsAway_of_row {r : Relay} {key : Hash} {state : RequestState}
    (hrow : Table.get? r.active key = some state) : TurnsAway r key := by
  rintro k op block outcome request hunused hfresh hd rfl
  let deadline := r.now + r.config.requestTimeoutMs.toNat
  let r' : Relay := { r with calls := Table.insert r.calls k (.simulating op block deadline) }
  have hblock : r.after [.start k (.process op), .reply k (.block (.ok block))] = r' := by
    have hcall : Table.contains r.calls k = false := Table.contains_eq_false_iff.mpr hunused
    simp [after_cons, step, hcall, Relay.begin, settle, Table.get?_insert, resumeReply,
      Table.insert_insert, r', deadline]
  have hs : Table.get? r'.calls k = some (.simulating op block deadline) :=
    (Table.get?_insert _ _ _ _).trans (if_pos rfl)
  have hcontains : Table.contains r'.active request.requestId = true := by
    simp [r', Table.contains, hrow]
  have hturned := intercept_turnedAway r' k hfresh hd hcontains deadline
  rw [hblock]
  simp only [step, hs, settle_result, resumeReply, hturned]
  rfl

theorem sparesInFlight_abandon (r : Relay) (id : CallId) : SparesInFlight r (.abandon id) := by
  intro key hin
  cases hin

theorem letsGo?_abandon {r : Relay} (hs : Table.get? r.calls id = some stage) :
    r.letsGo? (.abandon id) = stage.candidate?.map (·.requestId) := by
  have hh : r.holdOf id = stage.hold := by simp [holdOf, hs]
  rw [letsGo?, hh, Stage.hold_row?]
  cases stage.candidate? <;> rfl

theorem abandoned_stray {c : Candidate}
    (spares : Throughout SparesInFlight (idle config signer) es)
    (hs : Table.get? ((idle config signer).after es).calls id = some stage)
    (hc : stage.candidate? = some c) :
    Stray c.requestId c.lifecycle.state ((idle config signer).after (es ++ [.abandon id])).shared
      ((idle config signer).after (es ++ [.abandon id])).holdOf := by
  have hv := run_vacates hs
  have hrows := run_rows spares
  have hrow : (((idle config signer).after es).holdOf id).row? =
      some (c.requestId, c.lifecycle.state) :=
    holdOf_row?_iff.mpr ⟨c, by simp [Relay.candidate?, hs, hc], rfl, rfl⟩
  refine ⟨?_, ?_, ?_⟩
  · show Table.get? ((idle config signer).after (es ++ [.abandon id])).active c.requestId =
      some c.lifecycle.state
    rw [hv.active]
    exact hrows.held _ _ id hrow
  · intro k st hk
    obtain ⟨stage', hs', hrow'⟩ := holdOf_row?_eq_some.mp hk
    rw [hv.calls] at hs'
    split at hs'
    · cases hs'
    · rename_i hne
      exact hne (hrows.unique _ _ _ id k hrow (holdOf_row?_eq_some.mpr ⟨stage', hs', hrow'⟩))
  · show c.requestId ∉ Table.keys ((idle config signer).after (es ++ [.abandon id])).pending
    rw [hv.pending, Table.mem_keys_iff]
    rintro ⟨entry, hentry⟩
    cases (hrows.apart _ _ id hrow).symm.trans hentry

/-- Only its row is left of a request: no pair and no reservation goes with the row, and as long as
its id is not forgotten by name, the row stays, no call works on the request, and calls for it are
turned away. -/
structure OnlyRow (r : Relay) (c : Candidate) : Prop where
  unpaired : c.requestId ∉ Table.keys r.pending
  unreserved : c.requestId ∉ r.writer.reserved
  stays : ∀ more, Throughout (fun r e => c.requestId ∉ r.forgets e) r more →
    Table.get? (r.after more).active c.requestId = some c.lifecycle.state
  unowned : ∀ more, Throughout (fun r e => c.requestId ∉ r.forgets e) r more →
    ∀ k c', (r.after more).candidate? k = some c' → c'.requestId ≠ c.requestId
  turnsAway : ∀ more, Throughout (fun r e => c.requestId ∉ r.forgets e) r more →
    TurnsAway (r.after more) c.requestId

theorem Stray.unowned {r : Relay} {key : Hash} {state : RequestState}
    (hs : Stray key state r.shared r.holdOf) (k : CallId) (c : Candidate)
    (hc : r.candidate? k = some c) : c.requestId ≠ key :=
  fun heq => hs.unheld k _ (holdOf_row?_iff.mpr ⟨c, hc, heq, rfl⟩)

theorem abandoned_onlyRow {c : Candidate} {gone : List Hash}
    (spares : Throughout SparesInFlight (idle config signer) es)
    (hs : Table.get? ((idle config signer).after es).calls id = some stage)
    (hc : stage.candidate? = some c)
    (hagree : SetsAgree gone ((idle config signer).after (es ++ [.abandon id]))) :
    OnlyRow ((idle config signer).after (es ++ [.abandon id])) c := by
  have hstray := abandoned_stray spares hs hc
  have hlater := fun more => run_stray more hstray
  simp only [after_append _ (es ++ [.abandon id])] at hlater
  refine ⟨hstray.unpaired, ?_, fun more hkept => (hlater more hkept).row,
    fun more hkept => (hlater more hkept).unowned,
    fun more hkept => turnsAway_of_row (hlater more hkept).row⟩
  rw [hagree.reserved_iff]
  rintro (hpending | ⟨k, c', hc', -, heq⟩)
  · exact hstray.unpaired hpending
  · exact hstray.unowned k c' hc' heq

/-- An abandoned call is out of the line, with the next nonce as it was, and nothing of the other
calls has changed; the working sets agree as before, apart from the row of the request that the call
worked on. That row is left behind. -/
theorem abandoned_leaves_row (spares : Throughout SparesInFlight (idle config signer) es)
    (waiting : Table.get? ((idle config signer).after es).calls id = some stage) :
    Vacated id ((idle config signer).after es)
        ((idle config signer).after (es ++ [.abandon id])) ∧
      SetsAgree ((idle config signer).letGo es ++ (stage.candidate?.map (·.requestId)).toList)
        ((idle config signer).after (es ++ [.abandon id])) ∧
      ∀ c, stage.candidate? = some c →
        OnlyRow ((idle config signer).after (es ++ [.abandon id])) c := by
  have hspares : Throughout SparesInFlight (idle config signer) (es ++ [.abandon id]) :=
    throughout_concat.mpr ⟨spares, sparesInFlight_abandon _ id⟩
  have hagree := run_setsAgree hspares
  rw [letGo_concat, letsGo?_abandon waiting] at hagree
  exact ⟨run_vacates waiting, hagree, fun c hc => abandoned_onlyRow spares waiting hc hagree⟩

/-- A call is abandoned while it waits for a nonce, and the next call for its operation is turned
away, although nobody works on the request. -/
theorem sample_row_left :
    Table.get? ((idle Sample.config Sample.signer).after
        (Sample.first.asked "a" ++ [.abandon "a"])).active Sample.firstKey = some .populating ∧
      Sample.firstKey ∉ ((idle Sample.config Sample.signer).after
        (Sample.first.asked "a" ++ [.abandon "a"])).writer.reserved ∧
      ((((idle Sample.config Sample.signer).after (Sample.first.asked "a" ++ [.abandon "a"])).after
          [.start "b" (.process Sample.first.op), .reply "b" (.block (.ok ⟨0, 0, 0⟩))]).step
          (.reply "b" (.simulation (.ok Sample.first.outcome)))).2 =
        some (.rejected (.write (.duplicateRequest Sample.firstKey))) := by
  have hasked := Answerable.after_asked
    (Answerable.welcome_idle (a := Sample.first) Sample.config Sample.signer "a") rfl
  have hs : Table.get? ((idle Sample.config Sample.signer).after (Sample.first.asked "a")).calls
      "a" = some (.drafting (Sample.first.candidate (0 + Sample.config.requestTimeoutMs.toNat))
        ⟨Sample.first.response, none⟩ .reading) := by
    rw [hasked]
    exact Table.get?_insert _ _ _ _
  have spares : Throughout SparesInFlight (idle Sample.config Sample.signer)
      (Sample.first.asked "a") := by
    simp [Throughout, SparesInFlight, forgets, Answerable.asked]
  obtain ⟨hv, -, hleft⟩ := abandoned_leaves_row spares hs
  have honly := hleft _ rfl
  have hrow := honly.stays [] trivial
  have haway := honly.turnsAway [] trivial
  rw [after_nil] at hrow haway
  refine ⟨hrow, honly.unreserved, ?_⟩
  refine haway "b" _ _ _ _ ?_ ?_ Sample.first.detected rfl
  · rw [hv.calls, hasked]
    rfl
  · rw [hv.pending, hasked]
    rfl

end ComputeRelay
