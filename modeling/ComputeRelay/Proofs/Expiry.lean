import ComputeRelay.Proofs.GivingBack

/-! Dropping expired pairs, on request or before a request is taken on. What has expired is judged
by the time at which the call began, and which pairs there are to drop when it holds the lane. -/

namespace ComputeRelay

open Relay

/-- An event by which a call goes on as `next` does, with the ids of the expired pairs that it
dropped. -/
inductive Expires (r : Relay) (id : CallId) :
    Event → (next : Relay → List Hash → Relay × Progress) → Prop
  | asked (unused : Table.get? r.calls id = none) :
      Expires r id (.start id .expire) fun r' dropped => (r', .finished (.released dropped))
  | given {op : Operation} {outcome : Simulation} {request : ComputeRequest}
      (unused : Table.get? r.calls id = none) (detected : detect op outcome = .ok (some request)) :
      Expires r id (.start id (.processSimulated op outcome)) fun r' _ =>
        r'.takeOn op request outcome.block (r.now + r.config.requestTimeoutMs.toNat)
  | simulated {op : Operation} {block : BlockContext} {outcome : Simulation}
      {request : ComputeRequest} {deadline : Nat}
      (found : Table.get? r.calls id = some (.simulating op block deadline))
      (detected : detect op outcome = .ok (some request)) :
      Expires r id (.reply id (.simulation (.ok outcome))) fun r' _ =>
        r'.takeOn op request outcome.block deadline

/-- What a call does that may have to drop expired pairs first, and then goes on as `next` does. -/
def Relay.expireThen (r : Relay) (id : CallId) (stage : Stage)
    (next : Relay → List Hash → Relay × Progress) : Relay × Progress :=
  if r.pending.any fun e => r.expired r.now e.2 then
    if (r.writer.lane.join id).isHeldBy id then
      let (r', dropped) := (r.modifyLane (·.join id)).clear id r.now
      next r' dropped
    else (r.modifyLane (·.join id), .waiting stage)
  else next r []

variable {r : Relay} {id : CallId} {e : Event} {next : Relay → List Hash → Relay × Progress}

theorem Expires.outside (h : Expires r id e next) : (r.holdOf id).place = .outside := by
  cases h with
  | asked unused => simp [holdOf, unused]
  | given unused => simp [holdOf, unused]
  | simulated found => simp [holdOf, found, Stage.hold]

theorem Expires.step_eq (h : Expires r id e next) :
    ∃ stage : Stage, stage.awaitsTurn = true ∧
      (∀ r' : Relay, r'.resumeTurn id stage =
        next (r'.clear id r.now).1 (r'.clear id r.now).2) ∧
      r.step e = settle id (r.expireThen id stage next) := by
  cases h with
  | asked unused =>
    have hcall : Table.contains r.calls id = false := Table.contains_eq_false_iff.mpr unused
    refine ⟨.expiring r.now, rfl, fun r' => rfl, ?_⟩
    simp only [step, hcall, Bool.false_eq_true, if_false]
    rfl
  | @given op outcome request unused detected =>
    have hcall : Table.contains r.calls id = false := Table.contains_eq_false_iff.mpr unused
    refine ⟨.clearing r.now op request outcome.block
      (r.now + r.config.requestTimeoutMs.toNat), rfl, fun r' => rfl, ?_⟩
    simp only [step, hcall, Bool.false_eq_true, if_false, Relay.begin, intercept, detected]
    rfl
  | @simulated op block outcome request deadline found detected =>
    refine ⟨.clearing r.now op request outcome.block deadline, rfl, fun r' => rfl, ?_⟩
    simp only [step, found, resumeReply, intercept, detected]
    rfl

theorem expireThen_busy {stage : Stage} (hold : ∃ e ∈ r.pending, r.expired r.now e.2 = true)
    (hout : id ∉ r.writer.lane.line) (hbusy : r.writer.lane.line ≠ []) :
    r.expireThen id stage next = (r.modifyLane (·.join id), .waiting stage) := by
  have hheld : ¬ (r.writer.lane.join id).isHeldBy id = true := by rwa [Lane.isHeldBy_join hout]
  rw [expireThen, if_pos (List.any_eq_true.mpr hold), if_neg hheld]

theorem expireThen_free {stage : Stage} (hold : ∃ e ∈ r.pending, r.expired r.now e.2 = true)
    (hout : id ∉ r.writer.lane.line) (hfree : r.writer.lane.line = []) :
    r.expireThen id stage next = next ((r.modifyLane (·.join id)).clear id r.now).1
      ((r.modifyLane (·.join id)).clear id r.now).2 := by
  have hheld : (r.writer.lane.join id).isHeldBy id = true := (Lane.isHeldBy_join hout).mpr hfree
  rw [expireThen, if_pos (List.any_eq_true.mpr hold), if_pos hheld]

/-- A call that has expired pairs to drop drops, as soon as it holds the lane, the pairs from the
lowest nonce on whose pair had expired when the call began. Their requests leave all working sets
and can be taken on again, and the lane goes on from that nonce if its next one was higher. While
the call waits for the lane, nothing but its turn takes it further. When no pair has expired,
nothing is dropped. -/
theorem expiry_exact (config : Config) (signer : Signer) (es : List Event) (id : CallId) (e : Event)
    (next : Relay → List Hash → Relay × Progress)
    (expires : Expires ((idle config signer).after es) id e next) :
    let r := (idle config signer).after es
    ((∀ entry ∈ r.pending, r.expired r.now entry.2 = false) →
      r.step e = settle id (next r [])) ∧
    ((∃ entry ∈ r.pending, r.expired r.now entry.2 = true) →
      (∀ es₁ e₁, Obtains config signer id es e es₁ e₁ → ∃ r' dropped,
        GivenBack ((idle config signer).after es₁) id
          (fun _ entry => ((idle config signer).after es₁).expired r.now entry) r' dropped ∧
        (∀ key ∈ dropped, r'.TakesOn key) ∧
        ((idle config signer).after es₁).step e₁ = settle id (next r' dropped)) ∧
      (r.writer.lane.line ≠ [] →
        ∃ stage, r.step e = settle id (r.modifyLane (·.join id), .waiting stage)) ∧
      AwaitsTurn config signer id es e) := by
  intro r
  obtain ⟨stage, hawaits, hresume, hstep⟩ := expires.step_eq
  have hout : id ∉ r.writer.lane.line := not_mem_line expires.outside
  constructor
  · intro hnone
    have hany : ¬ (r.pending.any fun e => r.expired r.now e.2) = true := by
      simpa using hnone
    rw [hstep, expireThen, if_neg hany]
  intro hold
  refine ⟨?_, ?_, ?_⟩
  · intro es₁ e₁ hobtains
    have hkeys := run_nodup_keys config signer es₁
    cases hobtains with
    | at_once free =>
      have hgiven : GivenBack r id (fun _ entry => r.expired r.now entry) _ _ :=
        giveBack_givenBack hkeys (f := (·.join id)) rfl (Lane.erase_join hout)
      refine ⟨_, _, hgiven, fun key hin => hgiven.takesOn hin, ?_⟩
      rw [List.erase_of_not_mem hout] at free
      rw [hstep, expireThen_free hold hout free]
      rfl
    | @in_turn more busy quiet first =>
      rw [List.erase_of_not_mem hout] at busy
      rw [expireThen_busy hold hout busy] at hstep
      have hs := awaits_quietly hstep quiet
      have hgiven : GivenBack ((idle config signer).after (es ++ e :: more)) id
          (fun _ entry => ((idle config signer).after (es ++ e :: more)).expired r.now entry) _ _ :=
        giveBack_givenBack hkeys (f := fun lane => lane) rfl rfl
      refine ⟨_, _, hgiven, fun key hin => hgiven.takesOn hin, ?_⟩
      simp only [step, hs, first, if_true, hresume]
      rfl
  · intro busy
    rw [expireThen_busy hold hout busy] at hstep
    exact ⟨stage, hstep⟩
  · intro busy more quiet e' ha
    rw [List.erase_of_not_mem hout] at busy
    rw [expireThen_busy hold hout busy] at hstep
    exact turn_or_abandon (awaits_quietly hstep quiet) hawaits ha

/-- The first of two pairs has expired, and the second, of a higher nonce, has not. -/
theorem Sample.after_expired : ∃ p q : Pair, p.write.nonce = 0 ∧ q.write.nonce = 1 ∧
    (idle Sample.config Sample.signer).after (both ++ [.tick 60000]) =
      { idle Sample.config Sample.signer with
        writer := {
          config := Sample.config, signer := Sample.signer, reserved := [firstKey, secondKey],
          lane := ⟨some 2, []⟩ }
        now := 120000
        active := [(firstKey, .completed), (secondKey, .completed)]
        pending := [(firstKey, ⟨p, 0⟩), (secondKey, ⟨q, 60000⟩)] } := by
  obtain ⟨p, q, hp, hq, hboth⟩ := after_both
  refine ⟨p, q, hp, hq, ?_⟩
  rw [after_concat, hboth, step_tick rfl (by rfl : 60000 + 60000 = 120000)]

/-- A pair that was never submitted is dropped after its time, with the younger pair of a higher
nonce, and both requests can come again. -/
theorem Sample.both_expire : ∃ r' dropped,
    ((idle Sample.config Sample.signer).after (both ++ [.tick 60000])).step (.start "x" .expire) =
        settle "x" (r', .finished (.released dropped)) ∧
      dropped.Perm [firstKey, secondKey] ∧ r'.TakesOn firstKey ∧ r'.TakesOn secondKey := by
  obtain ⟨p, q, hp, hq, hr⟩ := after_expired
  have hunused : Table.get? ((idle Sample.config Sample.signer).after
      (both ++ [.tick 60000])).calls "x" = none := by
    rw [hr]
    rfl
  have hfree : ((idle Sample.config Sample.signer).after
      (both ++ [.tick 60000])).writer.lane.line.erase "x" = [] := by
    rw [hr]
    rfl
  obtain ⟨-, hexpired⟩ := expiry_exact Sample.config Sample.signer _ "x" _ _ (.asked hunused)
  rw [hr] at hexpired
  obtain ⟨r', dropped, hgiven, htakes, hstep⟩ := (hexpired ⟨_, List.mem_cons_self, rfl⟩).1 _ _
    (.at_once hfree)
  rw [hr] at hgiven
  have hlow : ∀ n, (⟨p, 0⟩ : PendingPair).nonce ≤ n := by simp [PendingPair.nonce, hp]
  have hall : ∀ key, key ∈ dropped ↔ key ∈ [firstKey, secondKey] := by
    intro key
    rw [hgiven.dropped_iff]
    constructor
    · rintro ⟨entry, low, hin, -⟩
      exact List.mem_map_of_mem (f := Prod.fst) hin
    · intro hkey
      obtain ⟨⟨_, entry⟩, hin, rfl⟩ : ∃ e ∈ [(firstKey, (⟨p, 0⟩ : PendingPair)),
          (secondKey, ⟨q, 60000⟩)], e.1 = key := List.mem_map.mp hkey
      exact ⟨entry, _, hin, ⟨List.mem_cons_self, rfl, fun _ _ _ => hlow _⟩, hlow _⟩
  have hdropped := (List.perm_ext_iff_of_nodup hgiven.nodup (by decide)).mpr hall
  refine ⟨r', dropped, hstep, hdropped, htakes _ ?_, htakes _ ?_⟩
  · simp [hall]
  · simp [hall]

end ComputeRelay
