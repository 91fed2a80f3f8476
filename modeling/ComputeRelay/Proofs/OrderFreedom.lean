import ComputeRelay.Proofs.Answerable
import ComputeRelay.Proofs.Batches

/-! Batches come to their ends in any order, and to the same ends. Some call of an unfinished batch
can always go further, and each that does is closer to its end; so each operation gets the result
that it gets alone. -/

namespace ComputeRelay

open Relay SteadyWorld

theorem Stage.rank_le (stage : Stage) : stage.rank ≤ 8 := by
  cases stage with
  | drafting c answer stage => cases stage <;> simp [Stage.rank, Drafting.rank]
  | _ => simp [Stage.rank]

theorem Config.ttl_pos {config : Config} (valid : config.validate = .ok ()) :
    0 < config.pendingTtlMs.toNat := by
  have hsound : config.fault? = none := by
    unfold Config.validate at valid
    split at valid
    · cases valid
    · assumption
  by_contra hzero
  have hshort : config.pendingTtlMs ≤ config.requestTimeoutMs + config.fallbackGraceMs := by
    rw [UInt64.le_iff_toNat_le]
    omega
  unfold Config.fault? at hsound
  simp only [if_pos hshort] at hsound
  split_ifs at hsound

section

variable {config : Config} {signer : Signer} {w : SteadyWorld config signer} {r : Relay}
  {e : Event} {id : CallId} {op : Operation} {batch : Table CallId Operation}
  {begun : List CallId} {results : Table CallId Result}

/-- How far a call is from its end at most. -/
def Relay.callLeft (r : Relay) (begun : List CallId) (id : CallId) : Nat :=
  match Table.get? r.calls id with
  | some stage => 9 - stage.rank
  | none => if id ∈ begun then 0 else 10

/-- How far a batch is from its end at most. -/
def Relay.batchLeft (r : Relay) (begun : List CallId) (batch : Table CallId Operation) : Nat :=
  (batch.map fun e => r.callLeft begun e.1).sum

/-- An event that takes one call of a batch closer to its end takes the batch closer to its end. -/
theorem batchLeft_lt (hop : (id, op) ∈ batch) (ha : r.addressee? e = some id)
    (closer : (r.step e).1.callLeft (begun ++ e.begins?.toList) id < r.callLeft begun id) :
    (r.step e).1.batchLeft (begun ++ e.begins?.toList) batch < r.batchLeft begun batch := by
  have hothers : ∀ k, k ≠ id →
      (r.step e).1.callLeft (begun ++ e.begins?.toList) k = r.callLeft begun k := by
    intro k hk
    have hget : Table.get? (r.step e).1.calls k = Table.get? r.calls k := by
      refine step_calls_of_ne ?_
      rw [ha]
      exact fun heq => hk (Option.some.inj heq).symm
    have hbegun : k ∈ begun ++ e.begins?.toList ↔ k ∈ begun := by
      rw [List.mem_append, or_iff_left_iff_imp]
      intro hin
      cases e with
      | start id' job =>
        obtain rfl : k = id' := List.mem_singleton.mp hin
        simp only [addressee?] at ha
        split at ha
        · cases ha
        · exact absurd (Option.some.inj ha) hk
      | _ => cases hin
    rw [callLeft, callLeft, hget]
    simp only [hbegun]
  refine List.sum_lt_sum _ _ ?_ ⟨(id, op), hop, closer⟩
  intro entry hin
  by_cases hk : entry.1 = id
  · rw [hk]
    exact closer.le
  · exact (hothers entry.1 hk).le

namespace SteadyWorld

theorem Advances.callLeft_lt {stage : Stage} {step : Relay × Progress}
    (h : w.Advances op stage.rank step.2) (hs : Table.get? r.calls id = some stage)
    (hsettle : r.step e = settle id step) (hbegun : id ∈ begun) (hbegins : e.begins? = none) :
    (r.step e).1.callLeft (begun ++ e.begins?.toList) id < r.callLeft begun id := by
  have hrank := stage.rank_le
  have hbefore : r.callLeft begun id = 9 - stage.rank := by rw [callLeft, hs]
  have hget : Table.get? (r.step e).1.calls id = step.2.stage? := by
    rw [hsettle, get?_settle, if_pos rfl]
  rw [hbefore, hbegins, Option.toList_none, List.append_nil, callLeft, hget]
  obtain ⟨r', p⟩ := step
  cases p with
  | waiting stage' =>
    obtain ⟨-, hlater⟩ := h.later stage' rfl
    have hrank' := stage'.rank_le
    show 9 - stage'.rank < 9 - stage.rank
    omega
  | finished result =>
    show (if id ∈ begun then 0 else 10) < 9 - stage.rank
    rw [if_pos hbegun]
    omega

/-- An event that may happen next and takes the batch closer to its end. -/
structure Furthers (w : SteadyWorld config signer) (batch : Table CallId Operation) (r : Relay)
    (begun : List CallId) (e : Event) : Prop where
  allows : w.Allows batch r e
  new : ∀ id ∈ e.begins?, id ∉ begun
  closer : (r.step e).1.batchLeft (begun ++ e.begins?.toList) batch < r.batchLeft begun batch

theorem start_furthers (h : w.Underway batch r begun results) (hop : (id, op) ∈ batch)
    (hnew : id ∉ begun) : w.Furthers batch r begun (.start id (.process op)) := by
  have hfree : Table.get? r.calls id = none := by
    rw [← Table.contains_eq_false_iff]
    by_contra hin
    exact hnew ((h.begun_iff id).mpr (.inl (by simpa using hin)))
  refine ⟨hop, ?_, batchLeft_lt hop (addressee_start _ hfree) ?_⟩
  · rintro k ⟨⟩
    exact hnew
  · have hbefore : r.callLeft begun id = 10 := by rw [callLeft, hfree, if_neg hnew]
    have hget : Table.get? (r.step (.start id (.process op))).1.calls id =
        some (.readingBlock op (r.now + r.config.requestTimeoutMs.toNat)) := by
      simp [step, Table.contains, hfree, Relay.begin, settle, Table.get?_insert]
    rw [hbefore, callLeft, hget]
    exact Nat.lt_succ_self 9

theorem reply_furthers {stage : Stage} {query : Query} (h : w.Underway batch r begun results)
    (hd : w.Distinct batch) (hr : Settled config signer r)
    (hs : Table.get? r.calls id = some stage) (asks : stage.query? r.systemAccount = some query) :
    w.Furthers batch r begun (.reply id (w.answer query)) := by
  obtain ⟨op, hop, honWay⟩ := h.calls id stage hs
  obtain ⟨log, hb⟩ := hr.backed id stage hs
  have hadvances := reply_advances id hr.config hr.signer hb honWay asks h.calm
    (h.admits hd hr.sets hs)
  have hbegun : id ∈ begun := (h.begun_iff id).mpr (.inl (by simp [Table.contains, hs]))
  refine ⟨⟨stage, query, hs, asks, rfl⟩, ?_, ?_⟩
  · intro k hk
    cases hk
  · exact batchLeft_lt hop (addressee_reply hs (expects_answer asks))
      (hadvances.callLeft_lt hs (step_reply hs _) hbegun rfl)

theorem turn_furthers {c : Candidate} {answer : Answer} (h : w.Underway batch r begun results)
    (hr : Settled config signer r)
    (hs : Table.get? r.calls id = some (.drafting c answer .queued))
    (first : r.writer.lane.isHeldBy id = true) : w.Furthers batch r begun (.turn id) := by
  obtain ⟨op, hop, honWay⟩ := h.calls id _ hs
  obtain ⟨log, hb⟩ := hr.backed id _ hs
  have hadvances := queued_advances hr.config hr.signer hb honWay first
  have hbegun : id ∈ begun := (h.begun_iff id).mpr (.inl (by simp [Table.contains, hs]))
  have hcloser := hadvances.callLeft_lt hs (step_turn hs first) hbegun rfl
  refine ⟨trivial, ?_, batchLeft_lt hop (addressee_turn hs first) hcloser⟩
  intro k hk
  cases hk

/-- As long as an operation has no result, its call can go further, or the first in line can. -/
theorem exists_furthers (h : w.Underway batch r begun results) (hd : w.Distinct batch)
    (hr : Settled config signer r) (hop : (id, op) ∈ batch)
    (unfinished : id ∉ Table.keys results) : ∃ e, w.Furthers batch r begun e := by
  by_cases hbegun : id ∈ begun
  · have hcall : ∃ stage, Table.get? r.calls id = some stage := by
      rcases (h.begun_iff id).mp hbegun with hcontains | hended
      · exact Option.isSome_iff_exists.mp hcontains
      · exact absurd hended unfinished
    obtain ⟨stage, hs⟩ := hcall
    cases asks : stage.query? r.systemAccount with
    | some query => exact ⟨_, reply_furthers h hd hr hs asks⟩
    | none =>
      obtain ⟨op', -, honWay⟩ := h.calls id stage hs
      obtain ⟨c, answer, rfl⟩ := queued_of_unasked honWay.processes asks
      -- the call stands in line, so there is a first in line
      have hline := hr.reachable.reads.inLine
      have hin : id ∈ r.writer.lane.line := by
        refine (hline.mem_iff id).mpr ?_
        simp [holdOf, hs, Stage.hold, Drafting.place]
      obtain ⟨k, rest, hk⟩ := List.exists_cons_of_ne_nil (List.ne_nil_of_mem hin)
      have hfirst : r.writer.lane.isHeldBy k = true := by
        rw [Lane.isHeldBy_iff, hk]
        rfl
      have hplace : (r.holdOf k).place ≠ .outside := by
        refine (hline.mem_iff k).mp ?_
        show k ∈ r.writer.lane.line
        rw [hk]
        exact List.mem_cons_self
      cases hs' : Table.get? r.calls k with
      | none => simp [holdOf, hs'] at hplace
      | some stage' =>
        cases asks' : stage'.query? r.systemAccount with
        | some query => exact ⟨_, reply_furthers h hd hr hs' asks'⟩
        | none =>
          obtain ⟨op'', -, honWay'⟩ := h.calls k stage' hs'
          obtain ⟨c', answer', rfl⟩ := queued_of_unasked honWay'.processes asks'
          exact ⟨_, turn_furthers h hr hs' hfirst⟩
  · exact ⟨_, start_furthers h hop hbegun⟩

/-- However far a batch has got, it can be brought to its end. -/
theorem exists_completion (hd : w.Distinct batch) (ttl : 0 < config.pendingTtlMs.toNat)
    {es : List Event} (plays : w.Plays batch es) :
    ∃ more, w.Plays batch (es ++ more) ∧
      Table.keys batch ⊆ Table.keys ((idle config signer).results (es ++ more)) := by
  -- each event that furthers the batch leaves less of it
  generalize hleft : ((idle config signer).after es).batchLeft (Relay.begun es) batch = left
  induction left using Nat.strong_induction_on generalizing es with
  | _ left ih =>
    obtain ⟨hunderway, hspares⟩ := run_underway hd ttl plays
    by_cases hfinished : Table.keys batch ⊆ Table.keys ((idle config signer).results es)
    · refine ⟨[], ?_, ?_⟩
      · rwa [List.append_nil]
      · rwa [List.append_nil]
    · have hmissing : ∃ id ∈ Table.keys batch,
          id ∉ Table.keys ((idle config signer).results es) := by
        by_contra hnone
        push Not at hnone
        exact hfinished hnone
      obtain ⟨id, hid, hunfinished⟩ := hmissing
      obtain ⟨op, hget⟩ := Table.mem_keys_iff.mp hid
      obtain ⟨e, hfurthers⟩ := exists_furthers hunderway hd (run_settled plays hspares)
        (Table.mem_of_get? hget) hunfinished
      have hcloser := hfurthers.closer
      rw [← begun_concat, ← after_concat, hleft] at hcloser
      obtain ⟨more, hplays, hall⟩ :=
        ih _ hcloser (plays.concat hfurthers.allows hfurthers.new) rfl
      refine ⟨e :: more, ?_, ?_⟩
      · simpa using hplays
      · simpa using hall

/-- What a batch has come to does not depend on the order in which its calls have gone on. -/
structure OrderFree (w : SteadyWorld config signer) (batch : Table CallId Operation)
    (es : List Event) : Prop where
  /-- No call has ended twice. -/
  once : (Table.keys ((idle config signer).results es)).Nodup
  named : Table.keys ((idle config signer).results es) ⊆ Table.keys batch
  /-- A result is what its operation gets alone, up to the nonce and the signature of the write. -/
  alone : ∀ id op result, (id, op) ∈ batch → (id, result) ∈ (idle config signer).results es →
    (∃ es' result', w.Plays [(id, op)] es' ∧ (idle config signer).results es' = [(id, result')]) ∧
      ∀ es' result', w.Plays [(id, op)] es' →
        (id, result') ∈ (idle config signer).results es' → result'.blanked = result.blanked
  /-- The writes carry the nonces from the world's nonce on, and each of them once. -/
  numbered : nonces ((idle config signer).results es) =
    noncesFrom w.nonce (nonces ((idle config signer).results es)).length
  apart : (nonces ((idle config signer).results es)).Nodup
  /-- The calls that have not ended yet can all be brought to their ends. -/
  completes : ∃ more, w.Plays batch (es ++ more) ∧
    (Table.keys ((idle config signer).results (es ++ more))).Perm (Table.keys batch)

theorem distinct_singleton (w : SteadyWorld config signer) (id : CallId) (op : Operation) :
    w.Distinct [(id, op)] := by
  refine ⟨List.nodup_singleton id, ?_⟩
  cases h : w.key? op <;> simp [h]

theorem Plays.named {es : List Event} (hd : w.Distinct batch)
    (ttl : 0 < config.pendingTtlMs.toNat) (plays : w.Plays batch es) :
    Table.keys ((idle config signer).results es) ⊆ Table.keys batch := by
  obtain ⟨hunderway, -⟩ := run_underway hd ttl plays
  intro id hid
  obtain ⟨result, hget⟩ := Table.mem_keys_iff.mp hid
  obtain ⟨op, hop, -⟩ := hunderway.ended id result (Table.mem_of_get? hget)
  exact List.mem_map_of_mem hop

theorem exists_completion_perm {es : List Event} (hd : w.Distinct batch)
    (ttl : 0 < config.pendingTtlMs.toNat) (plays : w.Plays batch es) :
    ∃ more, w.Plays batch (es ++ more) ∧
      (Table.keys ((idle config signer).results (es ++ more))).Perm (Table.keys batch) := by
  obtain ⟨more, hplays, hall⟩ := exists_completion hd ttl plays
  refine ⟨more, hplays, ?_⟩
  have honce := (run_underway hd ttl hplays).1.once
  refine (List.perm_ext_iff_of_nodup honce hd.names).mpr fun id => ?_
  exact ⟨fun hin => hplays.named hd ttl hin, fun hin => hall hin⟩

theorem Plays.verdict {es : List Event} {result : Result} (hd : w.Distinct batch)
    (ttl : 0 < config.pendingTtlMs.toNat) (plays : w.Plays batch es) (hop : (id, op) ∈ batch)
    (hresult : (id, result) ∈ (idle config signer).results es) :
    result.blanked = (w.verdict op).blanked := by
  obtain ⟨op', hop', halike⟩ := (run_underway hd ttl plays).1.ended id result hresult
  obtain rfl := hd.op_eq hop hop'
  exact halike

theorem exists_alone (w : SteadyWorld config signer) (ttl : 0 < config.pendingTtlMs.toNat)
    (id : CallId) (op : Operation) : ∃ es result, w.Plays [(id, op)] es ∧
      (idle config signer).results es = [(id, result)] := by
  have hplays : w.Plays [(id, op)] [] := ⟨trivial, List.nodup_nil⟩
  obtain ⟨es, hplays', hperm⟩ := exists_completion_perm (distinct_singleton w id op) ttl hplays
  have hkeys : Table.keys ((idle config signer).results es) = [id] := List.perm_singleton.mp hperm
  obtain ⟨⟨k, result⟩, hone⟩ := List.length_eq_one_iff.mp (by
    have hlength := congrArg List.length hkeys
    rwa [Table.keys, List.length_map, List.length_singleton] at hlength)
  rw [hone] at hkeys
  obtain rfl : k = id := List.head_eq_of_cons_eq hkeys
  exact ⟨es, result, hplays', hone⟩

/-- Different pending requests have different words for ids, so they are no more than there are
words. -/
theorem length_keys_le {t : Table Hash PendingPair} (hk : (Table.keys t).Nodup) :
    (Table.keys t).length ≤ 2 ^ 256 := by
  have hfins : ((Table.keys t).map BitVec.toFin).Nodup :=
    hk.map fun a b hab => BitVec.toFin_inj.mp hab
  have hcard := hfins.length_le_card
  rwa [List.length_map, Fintype.card_fin] at hcard

/-- Operations that make different requests are processed as if each were alone, in whichever order
their calls go on in a steady world. -/
theorem batch_order_free (w : SteadyWorld config signer) (valid : config.validate = .ok ())
    (hd : w.Distinct batch) {es : List Event} (plays : w.Plays batch es) :
    w.OrderFree batch es := by
  have ttl := Config.ttl_pos valid
  obtain ⟨hunderway, -⟩ := run_underway hd ttl plays
  refine ⟨hunderway.once, plays.named hd ttl, ?_, hunderway.numbered.range, ?_,
    exists_completion_perm hd ttl plays⟩
  · intro id op result hop hresult
    have hverdict := plays.verdict hd ttl hop hresult
    refine ⟨exists_alone w ttl id op, ?_⟩
    intro es' result' hplays' hresult'
    have hverdict' := hplays'.verdict (distinct_singleton w id op) ttl
      (List.mem_singleton_self _) hresult'
    exact hverdict'.trans hverdict.symm
  · rw [hunderway.numbered.range]
    refine nodup_noncesFrom ?_ w.nonce
    rw [hunderway.stored]
    exact length_keys_le (run_nodup_keys config signer es)

end SteadyWorld

end

namespace Sample

/-- An operation of one of two senders ends with its marker, and every other simulation is clean. -/
def simulate (behind : List Operation) (op : Operation) : Simulation :=
  if behind = [] then
    if op = first.op then first.outcome
    else if op = second.op then second.outcome
    else .clean
  else .clean

theorem simulate_write {served : Operation} {requestId : Hash} {response : ComputeResponse}
    {write : Operation} (h : Written config signer served requestId response write) :
    simulate [] write = .clean := by
  obtain ⟨nonce, hbuild⟩ := h
  have hsender : write.sender = config.systemAccount := (CacheWriter.build_spec hbuild).sender
  have hfirst : write ≠ first.op := by
    rintro rfl
    exact absurd hsender (by decide)
  have hsecond : write ≠ second.op := by
    rintro rfl
    exact absurd hsender (by decide)
  rw [simulate, if_pos rfl, if_neg hfirst, if_neg hsecond]

/-- A world in which both accounts are registered with the signers of their responses. -/
def world : SteadyWorld config signer where
  block := .ok ⟨0, 0, 0⟩
  row account _ := .ok (if account = 0xaa then first.row else second.row)
  nonce := 7
  simulate behind op _ := .ok (simulate behind op)
  respond request := .ok (if request = first.request then first.response else second.response)
  blind h h' op block := by
    refine ⟨?_, rfl⟩
    rw [simulate_write h, simulate_write h']
  signs {served requestId response nonce e} hbuild := by
    obtain ⟨write, hok⟩ := CacheWriter.exists_build (w := { config, signer }) (fun _ => ⟨_, rfl⟩)
      served requestId response nonce
    cases hok.symm.trans hbuild

def batch : Table CallId Operation := [("a", first.op), ("b", second.op), ("c", op 0xb3)]

theorem batch_distinct : world.Distinct batch := by
  have hfirst : world.key? first.op = some firstKey := by
    rw [SteadyWorld.key?, SteadyWorld.request?_eq rfl rfl first.detected]
    rfl
  have hsecond : world.key? second.op = some secondKey := by
    rw [SteadyWorld.key?, SteadyWorld.request?_eq rfl rfl second.detected]
    rfl
  have hthird : world.key? (op 0xb3) = none := by
    have hclean : detect (op 0xb3) .clean = .ok none := rfl
    rw [SteadyWorld.key?, SteadyWorld.request?_eq rfl rfl hclean]
    rfl
  have hkeys : (batch.map Prod.snd).filterMap world.key? = [firstKey, secondKey] := by
    show [first.op, second.op, op 0xb3].filterMap world.key? = [firstKey, secondKey]
    rw [List.filterMap_cons_some hfirst, List.filterMap_cons_some hsecond,
      List.filterMap_cons_none hthird, List.filterMap_nil]
  refine ⟨by decide, ?_⟩
  rw [hkeys]
  decide

/-- From a relay on, nothing but what the world allows happens, and these are the results. -/
structure Unfolds (r : Relay) (es : List Event) (results : Table CallId Result) : Prop where
  allowed : Throughout (world.Allows batch) r es
  results : r.results es = results

section

variable {r r' : Relay} {e : Event} {es : List Event} {results : Table CallId Result}
  {id : CallId}

theorem Unfolds.wait (h : Unfolds r' es results) (allows : world.Allows batch r e)
    (hstep : r.step e = (r', none)) : Unfolds r (e :: es) results where
  allowed := .cons allows hstep h.allowed
  results := by
    rw [Relay.results, outcome?_of_none (by rw [hstep]), hstep]
    exact h.results

theorem Unfolds.finish {result : Result} (h : Unfolds r' es results)
    (allows : world.Allows batch r e) (ha : r.addressee? e = some id)
    (hstep : r.step e = (r', some result)) : Unfolds r (e :: es) ((id, result) :: results) where
  allowed := .cons allows hstep h.allowed
  results := by
    rw [Relay.results, outcome?, ha, hstep]
    exact congrArg ((id, result) :: ·) h.results

/-- A call for a request that the world answers gets as far as the service. -/
theorem Unfolds.asks {a : Answerable} {limit : Nat}
    (h : Unfolds
      { r with
        active := Table.insert r.active a.key .requesting
        calls := Table.insert r.calls id (.asking ⟨a.op, a.request, a.outcome.block, limit,
          ⟨a.key, [.resolving, .detected], .requesting⟩⟩ a.registration) } es results)
    (hs : Table.get? r.calls id = some (.readingBlock a.op limit))
    (hfresh : (r.pending.any fun e => r.expired r.now e.2) = false)
    (hfree : Table.get? r.active a.key = none) (hoperation : simulate [] a.op = a.outcome)
    (haccount : world.row a.request.account a.outcome.block = .ok a.row) :
    Unfolds r (.reply id (.block (.ok ⟨0, 0, 0⟩)) :: .reply id (.simulation (.ok a.outcome)) ::
      .reply id (.row (.ok a.row)) :: es) results := by
  let c : Candidate :=
    ⟨a.op, a.request, a.outcome.block, limit, ⟨a.key, [.detected], .resolving⟩⟩
  let r₁ : Relay := { r with calls := Table.insert r.calls id (.simulating a.op ⟨0, 0, 0⟩ limit) }
  have h₁ : r.step (.reply id (.block (.ok ⟨0, 0, 0⟩))) = (r₁, none) := step_reply_fst hs
  have hs₁ : Table.get? r₁.calls id = some (.simulating a.op ⟨0, 0, 0⟩ limit) :=
    Table.get?_insert_self _ _ _
  let r₂ : Relay :=
    { r₁ with
      active := Table.insert r₁.active a.key .resolving
      calls := Table.insert r₁.calls id (.resolving c) }
  have h₂ : r₁.step (.reply id (.simulation (.ok a.outcome))) = (r₂, none) :=
    simulation_reply hs₁ hfresh hfree a.detected
  have hs₂ : Table.get? r₂.calls id = some (.resolving c) := Table.get?_insert_self _ _ _
  have h₃ : r₂.step (.reply id (.row (.ok a.row))) =
      ({ r with
        active := Table.insert r.active a.key .requesting
        calls := Table.insert r.calls id (.asking
          { c with lifecycle := ⟨a.key, [.resolving, .detected], .requesting⟩ }
          a.registration) }, none) := by
    refine (row_reply hs₂ rfl a.registered).trans ?_
    simp only [r₂, r₁, c, Candidate.requestId, Answerable.key, Table.insert_insert]
  refine .wait (.wait (.wait h ⟨_, _, hs₂, rfl, ?_⟩ h₃) ⟨_, _, hs₁, rfl, ?_⟩ h₂)
    ⟨_, _, hs, rfl, rfl⟩ h₁
  · exact congrArg Reply.row haccount.symm
  · exact congrArg (fun outcome => Reply.simulation (.ok outcome)) hoperation.symm

/-- Two clean simulations, of its write and of its operation, end a call with a pair. -/
theorem Unfolds.exists_pair {c : Candidate} {response : ComputeResponse} {nonce : Word}
    {write : Operation} {past : List RequestState}
    (hs : Table.get? r.calls id = some (.drafting c ⟨response, none⟩ (.simulating write)))
    (hl : c.lifecycle = ⟨c.requestId, past, .populating⟩)
    (hb : r.writer.build c.op c.requestId response nonce = .ok write)
    (hwritten : Written config signer c.op c.requestId response write)
    (hsender : c.op.sender ≠ r.systemAccount) (hfees : FeesFit r.config c.op) :
    ∃ (pair : Pair) (fee : FeeAdjustment) (l : Lifecycle), pair.write = write ∧
      ∀ {es results}, Unfolds
          { r with
            writer := r.writer.keep id ⟨write, .clean⟩
            active := Table.insert r.active c.requestId .completed
            pending := Table.insert r.pending c.requestId ⟨pair, r.now⟩
            calls := Table.erase r.calls id } es results →
        Unfolds r (.clean id :: .clean id :: es) ((id, .paired pair fee l) :: results) := by
  have hpopulating : (⟨response, none⟩ : Answer).fallback = none →
      ∃ key past, c.lifecycle = ⟨key, past, .populating⟩ := fun _ => ⟨_, _, hl⟩
  have hready := write_reply hs hpopulating
  obtain ⟨-, pair, fee, l, ⟨hpair, -⟩, hpaired⟩ := after_simulations hs hpopulating hb hsender hfees
  rw [hready] at hpaired
  refine ⟨pair, fee, l, hpair, fun h => ?_⟩
  have hs' := Table.get?_insert_self r.calls id (.resimulating
    { c with lifecycle := c.lifecycle.repriced ⟨response, none⟩ } ⟨response, none⟩ ⟨write, .clean⟩)
  refine .wait (.finish h ⟨_, _, hs', rfl, rfl⟩ (addressee_reply hs' rfl) hpaired)
    ⟨_, _, hs, rfl, ?_⟩ hready
  exact congrArg (fun outcome => Reply.simulation (.ok outcome)) (simulate_write hwritten).symm

end

/-- The calls start one after the other and go on in turn: the second asks the service first, and
the first waits for it in line. -/
def crossing : List Event :=
  [.start "a" (.process first.op), .start "b" (.process second.op), .start "c" (.process (op 0xb3)),
    .reply "c" (.block (.ok ⟨0, 0, 0⟩)), .clean "c",
    .reply "b" (.block (.ok ⟨0, 0, 0⟩)), .reply "b" (.simulation (.ok second.outcome)),
    .reply "b" (.row (.ok second.row)),
    .reply "a" (.block (.ok ⟨0, 0, 0⟩)), .reply "a" (.simulation (.ok first.outcome)),
    .reply "a" (.row (.ok first.row)),
    .reply "b" (.response (.ok second.response)), .reply "a" (.response (.ok first.response)),
    .reply "b" (.nonce (.ok 7)), .clean "b", .clean "b", .turn "a", .clean "a", .clean "a"]

/-- The call for a request as it asks the service. -/
def asking (a : Answerable) : Stage :=
  .asking ⟨a.op, a.request, a.outcome.block, config.requestTimeoutMs.toNat,
    ⟨a.key, [.resolving, .detected], .requesting⟩⟩ a.registration

/-- The first two calls ask the service, and the third has ended. -/
def asked : Relay where
  writer := { config := config, signer := signer }
  active := [(secondKey, .requesting), (firstKey, .requesting)]
  calls := [("a", asking first), ("b", asking second)]

theorem answers_unfold : ∃ (p q : Pair) (fee fee' : FeeAdjustment) (l l' : Lifecycle),
    p.write.nonce = 8 ∧ q.write.nonce = 7 ∧
      Unfolds asked (crossing.drop 11) [("b", .paired q fee' l'), ("a", .paired p fee l)] := by
  obtain ⟨write, hb⟩ := CacheWriter.exists_build (w := { config := config, signer := signer })
    (fun _ => ⟨_, rfl⟩) first.op first.key first.response 8
  obtain ⟨write', hb'⟩ := CacheWriter.exists_build (w := { config := config, signer := signer })
    (fun _ => ⟨_, rfl⟩) second.op second.key second.response 7
  have hnonce := (CacheWriter.build_spec hb).nonce
  have hnonce' := (CacheWriter.build_spec hb').nonce
  -- the second call gets the lane, and the first one stands behind it
  let b (stage : Drafting) : Stage :=
    .drafting (second.candidate config.requestTimeoutMs.toNat) ⟨second.response, none⟩ stage
  let a (stage : Drafting) : Stage :=
    .drafting (first.candidate config.requestTimeoutMs.toNat) ⟨first.response, none⟩ stage
  let r₁ : Relay :=
    { asked with
      writer := { asked.writer with reserved := [secondKey], lane := ⟨none, ["b"]⟩ }
      active := [(secondKey, .populating), (firstKey, .requesting)]
      calls := [("a", asking first), ("b", b .reading)] }
  have h₁ : asked.step (.reply "b" (.response (.ok second.response))) = (r₁, none) :=
    response_reply (rfl : Table.get? asked.calls "b" = some (asking second)) rfl second.verified
      (CacheWriter.start_reading (d := second.draft) "b" List.not_mem_nil rfl)
  let r₂ : Relay :=
    { asked with
      writer := { asked.writer with reserved := [secondKey, firstKey], lane := ⟨none, ["b", "a"]⟩ }
      active := [(secondKey, .populating), (firstKey, .populating)]
      calls := [("a", a .queued), ("b", b .reading)] }
  have hunreserved : firstKey ∉ [secondKey] := by decide
  have h₂ : r₁.step (.reply "a" (.response (.ok first.response))) = (r₂, none) :=
    response_reply (rfl : Table.get? r₁.calls "a" = some (asking first)) rfl first.verified
      (CacheWriter.start_queued (d := first.draft) "a" hunreserved rfl)
  let r₃ : Relay :=
    { r₂ with
      writer := { r₂.writer with lane := ⟨some 7, ["b", "a"]⟩ }
      calls := [("a", a .queued), ("b", b (.simulating write'))] }
  have h₃ : r₂.step (.reply "b" (.nonce (.ok 7))) = (r₃, none) :=
    nonce_reply (rfl : Table.get? r₂.calls "b" = some (b .reading)) hb'
  have hsender' : second.op.sender ≠ config.systemAccount := by decide
  have hfees' : FeesFit config second.op := by decide
  obtain ⟨q, fee', l', hq, hend'⟩ := Unfolds.exists_pair
    (rfl : Table.get? r₃.calls "b" = some (b (.simulating write'))) rfl hb' ⟨7, hb'⟩ hsender' hfees'
  -- its pair leaves the lane to the first call, which takes the next nonce
  let r₄ : Relay :=
    { r₃ with
      writer := { r₃.writer with lane := ⟨some 8, ["a"]⟩ }
      active := [(secondKey, .completed), (firstKey, .populating)]
      pending := [(secondKey, ⟨q, 0⟩)]
      calls := [("a", a .queued)] }
  have hkept : r₃.writer.keep "b" ⟨write', .clean⟩ = r₄.writer := by
    simp only [r₃, r₄, CacheWriter.keep, hnonce']
    rfl
  let r₅ : Relay := { r₄ with calls := [("a", a (.simulating write))] }
  have h₅ : r₄.step (.turn "a") = (r₅, none) :=
    turn_queued (rfl : Table.get? r₄.calls "a" = some (a .queued)) rfl rfl hb
  have hsender : first.op.sender ≠ config.systemAccount := by decide
  have hfees : FeesFit config first.op := by decide
  obtain ⟨p, fee, l, hp, hend⟩ := Unfolds.exists_pair
    (rfl : Table.get? r₅.calls "a" = some (a (.simulating write))) rfl hb ⟨8, hb⟩ hsender hfees
  refine ⟨p, q, fee, fee', l, l', ?_, ?_, ?_⟩
  · rw [hp, hnonce]
  · rw [hq, hnonce']
  · have hlast : Unfolds r₄ [.turn "a", .clean "a", .clean "a"] [("a", .paired p fee l)] :=
      .wait (hend ⟨trivial, rfl⟩) trivial h₅
    refine .wait (.wait (.wait (hend' ?_) ⟨_, _, rfl, rfl, rfl⟩ h₃) ⟨_, _, rfl, rfl, ?_⟩ h₂)
      ⟨_, _, rfl, rfl, ?_⟩ h₁
    · rw [hkept]
      exact hlast
    · rfl
    · rfl

/-- The first two calls get as far as the service, and the third ends at once. -/
theorem opening_unfolds {es : List Event} {results : Table CallId Result}
    (h : Unfolds asked es results) : Unfolds (idle config signer) (crossing.take 11 ++ es)
      (("c", .passthrough (op 0xb3)) :: results) := by
  let d := config.requestTimeoutMs.toNat
  let r₁ : Relay := { idle config signer with
    calls := [("a", .readingBlock first.op d), ("b", .readingBlock second.op d)] }
  have hfree : Table.get? [(secondKey, RequestState.requesting)] firstKey = none := by decide
  have hasked : Unfolds r₁ ((crossing.take 11).drop 5 ++ es) results := by
    refine Unfolds.asks (a := second) ?_ rfl rfl rfl ?_ rfl
    · exact Unfolds.asks (a := first) h rfl rfl hfree rfl rfl
    · rfl
  let r₀ : Relay := { r₁ with calls := r₁.calls ++ [("c", .readingBlock (op 0xb3) d)] }
  let r₀' : Relay := { r₁ with calls := r₁.calls ++ [("c", .simulating (op 0xb3) ⟨0, 0, 0⟩ d)] }
  have hends : Unfolds r₀ ([.reply "c" (.block (.ok ⟨0, 0, 0⟩)), .clean "c"] ++
      ((crossing.take 11).drop 5 ++ es)) (("c", .passthrough (op 0xb3)) :: results) :=
    .wait (.finish hasked ⟨_, _, rfl, rfl, rfl⟩ rfl rfl) ⟨_, _, rfl, rfl, rfl⟩ rfl
  have hfirst : ("a", first.op) ∈ batch := .head _
  have hsecond : ("b", second.op) ∈ batch := .tail _ (.head _)
  have hthird : ("c", op 0xb3) ∈ batch := .tail _ (.tail _ (.head _))
  exact .wait (.wait (.wait hends hthird rfl) hsecond rfl) hfirst rfl

/-- The second request gets the world's nonce and the first one the next, and with either of them
each operation comes to the end that it comes to alone. -/
theorem crossing_order_free : config.validate = .ok () ∧ world.Distinct batch ∧
    world.Plays batch crossing ∧ world.OrderFree batch crossing ∧
    ∃ (p q : Pair) (fee fee' : FeeAdjustment) (l l' : Lifecycle),
      (idle config signer).results crossing =
        [("c", .passthrough (op 0xb3)), ("b", .paired q fee' l'), ("a", .paired p fee l)] ∧
      q.write.nonce = 7 ∧ p.write.nonce = 8 := by
  have valid : config.validate = .ok () := by decide
  obtain ⟨p, q, fee, fee', l, l', hp, hq, hanswers⟩ := answers_unfold
  have hunfolds := opening_unfolds hanswers
  rw [List.take_append_drop] at hunfolds
  have plays : world.Plays batch crossing := ⟨hunfolds.allowed, by decide⟩
  exact ⟨valid, batch_distinct, plays, batch_order_free world valid batch_distinct plays,
    p, q, fee, fee', l, l', hunfolds.results, hq, hp⟩

end Sample

end ComputeRelay
