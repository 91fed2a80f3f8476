import ComputeRelay.Proofs.Contiguity
import ComputeRelay.Proofs.Forgetting

/-! Giving nonces back. A call that has to wait for the lane first hears nothing but its turn; once
it holds the lane, the pairs go whose nonces reach the lowest nonce of a selected pair, and the lane
goes on from that nonce. The requests of these pairs can be taken on again. -/

namespace ComputeRelay

open Relay

/-- A selected pair with the lowest nonce. -/
structure LowestOf (t : Table Hash PendingPair) (selected : Hash → PendingPair → Bool)
    (low : Hash × PendingPair) : Prop where
  stored : low ∈ t
  chosen : selected low.1 low.2 = true
  least : ∀ e ∈ t, selected e.1 e.2 = true → low.2.nonce ≤ e.2.nonce

/-- The pairs from the lowest selected nonce on are given back: their requests leave all working
sets and the lane is rewound, while the call that does this leaves the line. -/
structure GivenBack (r : Relay) (id : CallId) (selected : Hash → PendingPair → Bool) (r' : Relay)
    (dropped : List Hash) : Prop where
  dropped_iff : ∀ key, key ∈ dropped ↔ ∃ entry low, (key, entry) ∈ r.pending ∧
    LowestOf r.pending selected low ∧ low.2.nonce ≤ entry.nonce
  nodup : dropped.Nodup
  forgotten : r' = { r with
    writer := { r.writer with
      reserved := r.writer.reserved.filter fun key => !dropped.contains key
      lane := ⟨r'.writer.lane.next, r.writer.lane.line.erase id⟩ }
    active := r.active.filter fun e => !dropped.contains e.1
    pending := r.pending.filter fun e => !dropped.contains e.1 }
  lowered : ∀ low, LowestOf r.pending selected low →
    r'.writer.lane.next.map BitVec.toNat =
      r.writer.lane.next.map fun next => min next.toNat low.2.nonce
  kept : (∀ e ∈ r.pending, selected e.1 e.2 = false) →
    r'.writer.lane.next = r.writer.lane.next

variable {r r' : Relay} {id : CallId} {selected : Hash → PendingPair → Bool} {dropped : List Hash}

theorem LowestOf.nonce_eq {t : Table Hash PendingPair} {low low' : Hash × PendingPair}
    (h : LowestOf t selected low) (h' : LowestOf t selected low') : low.2.nonce = low'.2.nonce :=
  Nat.le_antisymm (h.least low' h'.stored h'.chosen) (h'.least low h.stored h.chosen)

theorem Lane.toNat_rewind (l : Lane) (entry : PendingPair) :
    (l.rewind (BitVec.ofNat 256 entry.nonce)).next.map BitVec.toNat =
      l.next.map fun next => min next.toNat entry.nonce := by
  have hfits : (BitVec.ofNat 256 entry.nonce).toNat = entry.nonce :=
    Nat.mod_eq_of_lt entry.pair.write.nonce.isLt
  cases hnext : l.next with
  | none => simp [Lane.rewind, hnext]
  | some next =>
    simp only [Lane.rewind, hnext, Option.map_some, hfits, Option.some.injEq]
    split <;> omega

/-- Who stands in line does not matter to what is given back. -/
theorem giveBack_givenBack (hkeys : (Table.keys r.pending).Nodup) {f : Lane → Lane}
    (hnext : (f r.writer.lane).next = r.writer.lane.next)
    (hline : (f r.writer.lane).line.erase id = r.writer.lane.line.erase id) :
    GivenBack r id selected
      (((r.modifyLane f).giveBack selected).1.modifyLane (·.leave id))
      ((r.modifyLane f).giveBack selected).2 := by
  rcases giveBack_spec (r.modifyLane f) selected with
    ⟨hnone, heq⟩ | ⟨low, hlow, hchosen, hleast, heq⟩
  · have hlowest : ∀ low, ¬ LowestOf r.pending selected low := by
      intro low h
      cases h.chosen.symm.trans (hnone low h.stored)
    rw [heq]
    refine ⟨?_, List.nodup_nil, ?_, fun low h => absurd h (hlowest low), fun _ => hnext⟩
    · intro key
      simp [hlowest]
    · simp [modifyLane, Lane.leave, hline]
  · have hstored : low ∈ r.pending := hlow
    have hlowest : LowestOf r.pending selected low := ⟨hstored, hchosen, hleast⟩
    rw [heq]
    refine ⟨?_, ?_, ?_, ?_, ?_⟩
    · intro key
      simp only [Shared.above, List.mem_map, List.mem_filter, decide_eq_true_eq]
      constructor
      · rintro ⟨e, ⟨he, hle⟩, rfl⟩
        exact ⟨e.2, low, he, hlowest, hle⟩
      · rintro ⟨entry, low', he, hlow', hle⟩
        exact ⟨(key, entry), ⟨he, (hlowest.nonce_eq hlow').trans_le hle⟩, rfl⟩
    · exact hkeys.sublist (List.filter_sublist.map _)
    · simp [modifyLane, Relay.forget, CacheWriter.release, Lane.leave, Lane.rewind, hline]
    · intro low' hlow'
      rw [← hlowest.nonce_eq hlow', ← hnext]
      exact Lane.toNat_rewind _ low.2
    · intro hnone
      cases hchosen.symm.trans (hnone low hstored)

/-- A call that comes for the request now is taken on. -/
def Relay.TakesOn (r : Relay) (key : Hash) : Prop :=
  ∀ k op outcome request, Table.get? r.calls k = none → detect op outcome = .ok (some request) →
    request.requestId = key →
    ∃ stage, Table.get? (r.step (.start k (.processSimulated op outcome))).1.calls k = some stage

theorem takesOn_of_inactive {key : Hash} (hfree : Table.get? r.active key = none) :
    r.TakesOn key := by
  rintro k op outcome request hunused hdetected rfl
  have hwaits : ∀ deadline, ∃ stage, (r.intercept k op outcome deadline).2 = .waiting stage := by
    intro deadline
    simp only [Relay.intercept, hdetected]
    split
    · split
      · have hcleared := clear_inactive (r := r.modifyLane (·.join k)) hfree k r.now
        exact ⟨_, congrArg Prod.snd (takeOn_free hcleared op _ deadline)⟩
      · exact ⟨_, rfl⟩
    · exact ⟨_, congrArg Prod.snd (takeOn_free hfree op _ deadline)⟩
  have hcall : Table.contains r.calls k = false := Table.contains_eq_false_iff.mpr hunused
  obtain ⟨stage, hstage⟩ := hwaits (r.now + r.config.requestTimeoutMs.toNat)
  refine ⟨stage, ?_⟩
  simp only [step, hcall, Bool.false_eq_true, if_false, Relay.begin]
  rw [get?_settle, if_pos rfl, hstage]
  rfl

theorem GivenBack.takesOn (h : GivenBack r id selected r' dropped) {key : Hash}
    (hin : key ∈ dropped) : r'.TakesOn key := by
  apply takesOn_of_inactive
  rw [h.forgotten]
  exact (Shared.get?_active_forget r.shared dropped key).trans (if_pos hin)

/-- A call at such a stage waits for its turn in the lane, and for nothing else. -/
def Stage.awaitsTurn : Stage → Bool
  | .clearing _ _ _ _ _ => true
  | .expiring _ => true
  | .dropping _ => true
  | .resyncing _ => true
  | _ => false

theorem turn_or_abandon {stage : Stage} {e : Event} (hs : Table.get? r.calls id = some stage)
    (hawaits : stage.awaitsTurn = true) (ha : r.addressee? e = some id) :
    e = .turn id ∨ e = .abandon id := by
  have hreply : ∀ reply, stage.expects reply = false := by
    intro reply
    cases stage <;> first | rfl | cases hawaits
  have hdeadline : stage.deadline? = none := by cases stage <;> first | rfl | cases hawaits
  have h := step_addressed ha
  generalize r.step e = out at h
  cases h with
  | started job unused => cases hs.symm.trans unused
  | resumed found resumed =>
    obtain rfl := Option.some.inj (hs.symm.trans found)
    cases resumed with
    | turn first => exact .inl rfl
    | reply expected => cases expected.symm.trans (hreply _)
    | timeout passed =>
      rw [hdeadline] at passed
      cases passed
  | abandoned => exact .inr rfl

/-- No event is for the call. -/
def Quiet (id : CallId) (r : Relay) (es : List Event) : Prop :=
  Throughout (fun r e => r.addressee? e ≠ some id) r es

theorem Quiet.calls {es : List Event} (h : Quiet id r es) :
    Table.get? (r.after es).calls id = Table.get? r.calls id := by
  induction es generalizing r with
  | nil => rfl
  | cons e es ih => exact (ih h.2).trans (step_calls_of_ne h.1)

variable {config : Config} {signer : Signer}

/-- Where in a run a call holds the lane that it asks for with an event: at once when no other call
is in line, or at its turn, of which it then hears next. -/
inductive Obtains (config : Config) (signer : Signer) (id : CallId) (es : List Event) (e : Event) :
    List Event → Event → Prop
  | at_once (free : ((idle config signer).after es).writer.lane.line.erase id = []) :
      Obtains config signer id es e es e
  | in_turn {more : List Event}
      (busy : ((idle config signer).after es).writer.lane.line.erase id ≠ [])
      (quiet : Quiet id ((idle config signer).after (es ++ [e])) more)
      (first : ((idle config signer).after (es ++ e :: more)).writer.lane.isHeldBy id = true) :
      Obtains config signer id es e (es ++ e :: more) (.turn id)

/-- A call that has to stand in line behind others, with an event, goes on at its turn alone. -/
def AwaitsTurn (config : Config) (signer : Signer) (id : CallId) (es : List Event) (e : Event) :
    Prop :=
  ((idle config signer).after es).writer.lane.line.erase id ≠ [] →
    ∀ more, Quiet id ((idle config signer).after (es ++ [e])) more → ∀ e',
      ((idle config signer).after (es ++ e :: more)).addressee? e' = some id →
        e' = .turn id ∨ e' = .abandon id

/-- A call that has joined a busy line stays at its stage until an event is for it. -/
theorem awaits_quietly {es more : List Event} {e : Event} {stage : Stage}
    (hstep : ((idle config signer).after es).step e = settle id (r', .waiting stage))
    (quiet : Quiet id ((idle config signer).after (es ++ [e])) more) :
    Table.get? ((idle config signer).after (es ++ e :: more)).calls id = some stage := by
  rw [show es ++ e :: more = es ++ [e] ++ more by simp, after_append, quiet.calls, after_concat,
    hstep, get?_settle, if_pos rfl]
  rfl

theorem not_mem_line {es : List Event}
    (h : (((idle config signer).after es).holdOf id).place = .outside) :
    id ∉ ((idle config signer).after es).writer.lane.line := by
  have hiff := (run_inLine config signer es).mem_iff id
  exact fun hin => hiff.mp hin h

theorem Lane.isHeldBy_join {l : Lane} (hout : id ∉ l.line) :
    (l.join id).isHeldBy id = true ↔ l.line = [] := by
  rw [Lane.isHeldBy_iff, Lane.join]
  cases hline : l.line with
  | nil => simp
  | cons k rest =>
    have hne : k ≠ id := by
      rintro rfl
      exact hout (hline ▸ List.mem_cons_self)
    simpa using hne

theorem Lane.erase_join {l : Lane} (hout : id ∉ l.line) :
    (l.join id).line.erase id = l.line.erase id := by
  rw [Lane.join, List.erase_append_right _ hout, List.erase_cons_head, List.append_nil,
    List.erase_of_not_mem hout]

end ComputeRelay
