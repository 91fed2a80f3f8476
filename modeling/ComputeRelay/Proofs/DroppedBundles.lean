import ComputeRelay.Proofs.GivingBack

/-! Dropping a bundle. The call gives pairs back from the lowest nonce of a dropped request on that
is still pending when it holds the lane, and has the nonce read anew when it holds the lane again.
A dropped request that is pending no longer does not count; so pairs above its nonce may stay. -/

namespace ComputeRelay

open Relay

namespace Relay

/-- The last pair of a request after an event, from what it was before. -/
def notePair (r : Relay) (key : Hash) (last : Option Pair) (e : Event) : Option Pair :=
  match (r.step e).2 with
  | some (.paired pair _ _) => if pair.requestId = key then some pair else last
  | _ => last

def lastPairFrom (key : Hash) : Relay → Option Pair → List Event → Option Pair
  | _, last, [] => last
  | r, last, e :: es => lastPairFrom key (r.step e).1 (r.notePair key last e) es

/-- The pair that a call ended with last for a request. -/
def lastPair (r : Relay) (es : List Event) (key : Hash) : Option Pair := lastPairFrom key r none es

theorem lastPairFrom_concat (key : Hash) (r : Relay) (last : Option Pair) (es : List Event)
    (e : Event) :
    lastPairFrom key r last (es ++ [e]) =
      (r.after es).notePair key (lastPairFrom key r last es) e := by
  induction es generalizing r last with
  | nil => rfl
  | cons e' es ih => exact ih (r.step e').1 (r.notePair key last e')

theorem lastPair_concat (r : Relay) (es : List Event) (e : Event) (key : Hash) :
    r.lastPair (es ++ [e]) key = (r.after es).notePair key (r.lastPair es key) e :=
  lastPairFrom_concat key r none es e

end Relay

variable {config : Config} {signer : Signer} {es more : List Event} {e : Event} {key : Hash}
  {entry : PendingPair} {r r' : Relay} {id : CallId} {ids dropped : List Hash}

/-- A pending pair carries the write of the pair that its request ended with last. -/
theorem run_lastPair (es : List Event) :
    ∀ key entry, (key, entry) ∈ ((idle config signer).after es).pending →
      ∃ pair, (idle config signer).lastPair es key = some pair ∧ pair.write = entry.pair.write := by
  induction es using List.reverseRecOn with
  | nil => rintro key entry ⟨⟩
  | append_singleton es e ih =>
    intro key entry hin
    have hkeys := run_nodup_keys config signer (es ++ [e])
    have hget := Table.get?_of_mem hkeys hin
    rw [after_concat] at hin hget
    have hturn := step_turnover ((idle config signer).after es) e
    rw [lastPair_concat]
    unfold notePair
    split
    · rename_i pair fee l hresult
      rw [hresult] at hturn
      have hpending : (((idle config signer).after es).step e).1.pending =
          Table.insert ((idle config signer).after es).pending pair.requestId
            ⟨pair, ((idle config signer).after es).now⟩ := congrArg Stock.pending hturn.finishes.2
      rw [hpending, Table.get?_insert] at hget
      split
      · rename_i hkey
        rw [if_pos hkey] at hget
        exact ⟨pair, rfl, by rw [← Option.some.inj hget]⟩
      · rename_i hkey
        rw [if_neg hkey] at hget
        exact ih key entry (Table.mem_of_get? hget)
    · rename_i hother
      rcases hturn.mem_cases hin with hold |
        ⟨signed, order, old, bound, rfl, hold, accepted, hbound, hentry⟩ |
        ⟨pair, fee, l, hresult, hnew⟩
      · exact ih key entry hold
      · obtain ⟨pair, hlast, hwrite⟩ := ih key old hold
        refine ⟨pair, hlast, hwrite.trans ?_⟩
        rw [hentry, (Pair.withSigned_spec accepted).1]
      · exact absurd hresult (hother pair fee l)

/-- A request that is pending after some events was pending before, or one of them finished it. -/
theorem pending_cases (hin : (key, entry) ∈ (r.after es).pending) :
    key ∈ Table.keys r.pending ∨ ∃ before e rest pair fee l, es = before ++ e :: rest ∧
      ((r.after before).step e).2 = some (.paired pair fee l) ∧ pair.requestId = key := by
  induction es using List.reverseRecOn generalizing entry with
  | nil => exact .inl (List.mem_map_of_mem hin)
  | append_singleton es e ih =>
    have hlater : ∀ {entry}, (key, entry) ∈ (r.after es).pending →
        key ∈ Table.keys r.pending ∨ ∃ before e' rest pair fee l, es ++ [e] = before ++ e' :: rest ∧
          ((r.after before).step e').2 = some (.paired pair fee l) ∧ pair.requestId = key := by
      intro entry hin
      refine (ih hin).imp_right ?_
      rintro ⟨before, e', rest, pair, fee, l, rfl, hresult, hkey⟩
      exact ⟨before, e', rest ++ [e], pair, fee, l, by simp, hresult, hkey⟩
    rw [after_concat] at hin
    rcases (step_turnover (r.after es) e).mem_cases hin with hold |
      ⟨signed, order, old, bound, -, hold, -⟩ | ⟨pair, fee, l, hresult, hnew⟩
    · exact hlater hold
    · exact hlater hold
    · exact .inr ⟨es, e, [], pair, fee, l, rfl, hresult, (Prod.mk.inj hnew).1.symm⟩

theorem exists_lowest (selected : Hash → PendingPair → Bool) {a : Hash × PendingPair}
    (hin : a ∈ r.pending) (hsel : selected a.1 a.2 = true) :
    ∃ low, LowestOf r.pending selected low ∧ low.2.nonce ≤ a.2.nonce := by
  rcases giveBack_spec r selected with ⟨hnone, -⟩ | ⟨low, hlow, hchosen, hleast, -⟩
  · cases hsel.symm.trans (hnone a hin)
  · exact ⟨low, ⟨hlow, hchosen, hleast⟩, hleast a hin hsel⟩

/-- The ids in `all`, and behind them those of `ids` that are missing. -/
def joinIds (all ids : List Hash) : List Hash :=
  ids.foldl (fun all key => if all.contains key then all else all ++ [key]) all

theorem mem_joinIds {all : List Hash} : key ∈ joinIds all ids ↔ key ∈ all ∨ key ∈ ids := by
  induction ids generalizing all with
  | nil => simp [joinIds]
  | cons k ids ih =>
    have hrest : joinIds all (k :: ids) =
      joinIds (if all.contains k then all else all ++ [k]) ids := rfl
    rw [hrest, ih]
    by_cases hk : k ∈ all
    · have hdone : key = k → key ∈ all := fun h => h ▸ hk
      simp only [List.contains_iff_mem, hk, if_true, List.mem_cons]
      tauto
    · simp [hk, or_assoc]

theorem nodup_joinIds {all : List Hash} (h : all.Nodup) : (joinIds all ids).Nodup := by
  induction ids generalizing all with
  | nil => exact h
  | cons k ids ih =>
    have hstep : (if all.contains k then all else all ++ [k]).Nodup := by
      by_cases hk : k ∈ all
      · simpa [hk] using h
      · simpa [hk, List.nodup_append] using ⟨h, fun a ha he => hk (he ▸ ha)⟩
    exact ih hstep

theorem contains_joinIds {all : List Hash} :
    (joinIds all ids).contains key = (all.contains key || ids.contains key) := by
  rw [Bool.eq_iff_iff]
  simp [mem_joinIds]

/-- A bundle is dropped: its requests leave all working sets, with those of all pairs from the
lowest nonce on that a pending pair of the bundle carries. -/
structure BundleDropped (r : Relay) (ids : List Hash) (r' : Relay) (released : List Hash) :
    Prop where
  released_iff : ∀ key, key ∈ released ↔ key ∈ ids ∨ ∃ entry low, (key, entry) ∈ r.pending ∧
    LowestOf r.pending (fun key _ => ids.contains key) low ∧ low.2.nonce ≤ entry.nonce
  nodup : released.Nodup
  pending : r'.pending = r.pending.filter fun e => !released.contains e.1
  active : r'.active = r.active.filter fun e => !released.contains e.1
  reserved : r'.writer.reserved = r.writer.reserved.filter fun key => !released.contains key

theorem GivenBack.bundleDropped (h : GivenBack r id (fun key _ => ids.contains key) r' dropped)
    (f : Lane → Lane) :
    BundleDropped r ids ((r'.forget ids).modifyLane f) (joinIds dropped ids) := by
  have hkept : ∀ key, (!(joinIds dropped ids).contains key) =
      (!ids.contains key && !dropped.contains key) := by
    intro key
    rw [contains_joinIds, Bool.not_or, Bool.and_comm]
  refine ⟨?_, nodup_joinIds h.nodup, ?_, ?_, ?_⟩
  · intro key
    rw [mem_joinIds, h.dropped_iff, or_comm]
  · simp only [hkept, ← List.filter_filter]
    rw [h.forgotten]
    rfl
  · simp only [hkept, ← List.filter_filter]
    rw [h.forgotten]
    rfl
  · simp only [hkept, ← List.filter_filter]
    rw [h.forgotten]
    rfl

theorem BundleDropped.settle {step : Relay × Progress} {released : List Hash}
    (h : BundleDropped r ids step.1 released) (id : CallId) :
    BundleDropped r ids (Relay.settle id step).1 released := by
  obtain ⟨r', p⟩ := step
  cases p <;> exact ⟨h.released_iff, h.nodup, h.pending, h.active, h.reserved⟩

/-- The nonce is forgotten at once when no other call is in line; else the call joins the line
again. -/
theorem dropPairs_spec (hkeys : (Table.keys r.pending).Nodup) (hnodup : r.writer.lane.line.Nodup)
    {f : Lane → Lane} (hnext : (f r.writer.lane).next = r.writer.lane.next)
    (hline : (f r.writer.lane).line.erase id = r.writer.lane.line.erase id) (ids : List Hash) :
    ∃ r' dropped, GivenBack r id (fun key _ => ids.contains key) r' dropped ∧
      (r.writer.lane.line.erase id = [] → (r.modifyLane f).dropPairs id ids =
        ((r'.forget ids).modifyLane fun lane => (lane.join id).forget.leave id,
          .finished (.released (joinIds dropped ids)))) ∧
      (r.writer.lane.line.erase id ≠ [] → (r.modifyLane f).dropPairs id ids =
        ((r'.forget ids).modifyLane (·.join id), .waiting (.resyncing (joinIds dropped ids)))) := by
  have hgiven : GivenBack r id (fun key _ => ids.contains key) _ _ :=
    giveBack_givenBack hkeys hnext hline
  refine ⟨_, _, hgiven, ?_⟩
  set r' := (((r.modifyLane f).giveBack fun key _ => ids.contains key).1.modifyLane (·.leave id))
  have hleft : r'.writer.lane.line = r.writer.lane.line.erase id := by
    rw [hgiven.forgotten]
  have hout : id ∉ r'.writer.lane.line := hleft ▸ hnodup.not_mem_erase
  have hheld : (r'.writer.lane.join id).isHeldBy id = true ↔ r.writer.lane.line.erase id = [] := by
    rw [Lane.isHeldBy_join hout, hleft]
  constructor
  · intro hfree
    exact if_pos (hheld.mpr hfree)
  · intro hbusy
    exact if_neg (mt hheld.mp hbusy)

theorem start_drop (hunused : Table.get? r.calls id = none) (ids : List Hash) :
    r.step (.start id (.drop ids)) = settle id
      (if (r.writer.lane.join id).isHeldBy id then (r.modifyLane (·.join id)).dropPairs id ids
        else (r.modifyLane (·.join id), .waiting (.dropping ids))) := by
  have hcall : Table.contains r.calls id = false := Table.contains_eq_false_iff.mpr hunused
  simp only [step, hcall, Bool.false_eq_true, if_false]
  rfl

/-- The step at which a call that drops a bundle holds the lane. -/
theorem Obtains.drop_step {es₁ : List Event} {e₁ : Event}
    (hunused : Table.get? ((idle config signer).after es).calls id = none)
    (h : Obtains config signer id es (.start id (.drop ids)) es₁ e₁) :
    ∃ f : Lane → Lane, ∀ r, r = (idle config signer).after es₁ →
      (f r.writer.lane).next = r.writer.lane.next ∧
      (f r.writer.lane).line.erase id = r.writer.lane.line.erase id ∧
      r.step e₁ = settle id ((r.modifyLane f).dropPairs id ids) := by
  have hout : id ∉ ((idle config signer).after es).writer.lane.line :=
    not_mem_line (by simp [holdOf, hunused])
  have hstart := start_drop hunused ids
  cases h with
  | at_once free =>
    rw [List.erase_of_not_mem hout] at free
    rw [if_pos ((Lane.isHeldBy_join hout).mpr free)] at hstart
    refine ⟨(·.join id), ?_⟩
    rintro r rfl
    exact ⟨rfl, Lane.erase_join hout, hstart⟩
  | in_turn busy quiet first =>
    rw [List.erase_of_not_mem hout] at busy
    rw [if_neg (mt (Lane.isHeldBy_join hout).mp busy)] at hstart
    have hs := awaits_quietly hstart quiet
    refine ⟨fun lane => lane, ?_⟩
    rintro r rfl
    refine ⟨rfl, rfl, ?_⟩
    simp only [step, hs, first, if_true]
    rfl

theorem drop_awaits (hunused : Table.get? ((idle config signer).after es).calls id = none) :
    AwaitsTurn config signer id es (.start id (.drop ids)) := by
  have hout : id ∉ ((idle config signer).after es).writer.lane.line :=
    not_mem_line (by simp [holdOf, hunused])
  have hstart := start_drop hunused ids
  intro busy more quiet e' ha
  rw [List.erase_of_not_mem hout] at busy
  rw [if_neg (mt (Lane.isHeldBy_join hout).mp busy)] at hstart
  exact turn_or_abandon (awaits_quietly hstart quiet) rfl ha

/-- A call that waits for the lane only to forget its nonce ends as soon as it holds the lane. -/
theorem Obtains.resync_step {es₁ es₂ : List Event} {e₁ e₂ : Event} {released : List Hash}
    {kept waiting : Relay}
    (hfree : ((idle config signer).after es₁).writer.lane.line.erase id = [] →
      ((idle config signer).after es₁).step e₁ =
        settle id (kept.modifyLane fun lane => (lane.join id).forget.leave id,
          .finished (.released released)))
    (hbusy : ((idle config signer).after es₁).writer.lane.line.erase id ≠ [] →
      ((idle config signer).after es₁).step e₁ =
        settle id (waiting, .waiting (.resyncing released)))
    (h : Obtains config signer id es₁ e₁ es₂ e₂) :
    (((idle config signer).after es₂).step e₂).2 = some (.released released) ∧
      (((idle config signer).after es₂).step e₂).1.writer.lane.next = none := by
  cases h with
  | at_once free =>
    rw [hfree free]
    exact ⟨rfl, rfl⟩
  | in_turn busy quiet held =>
    have hs := awaits_quietly (hbusy busy) quiet
    simp only [step, hs, held, if_true]
    exact ⟨rfl, rfl⟩

theorem Obtains.between {es₁ : List Event} {e₁ : Event} (h : Obtains config signer id es e es₁ e₁) :
    ∃ between, es₁ ++ [e₁] = es ++ [e] ++ between := by
  cases h with
  | at_once => exact ⟨[], (List.append_nil _).symm⟩
  | @in_turn more => exact ⟨more ++ [.turn id], by simp⟩

/-- The lowest nonce of the pairs that requests ended with last, all of which had one. -/
def LowestPaired (config : Config) (signer : Signer) (es : List Event) (ids : List Hash) (L : Nat) :
    Prop :=
  (∀ key ∈ ids, ∃ pair, (idle config signer).lastPair es key = some pair ∧
    L ≤ pair.write.nonce.toNat) ∧
  ∃ key ∈ ids, ∃ pair, (idle config signer).lastPair es key = some pair ∧
    pair.write.nonce.toNat = L

/-- What is released reaches down to the lowest nonce of the dropped requests exactly where each
pending pair from that nonce on has one of theirs, still pending, below it or at its nonce. -/
theorem BundleDropped.from_lowest {released : List Hash} {L : Nat}
    (h : BundleDropped ((idle config signer).after es) ids r' released)
    (hlowest : LowestPaired config signer es ids L) :
    (∀ e ∈ ((idle config signer).after es).pending, e.1 ∈ released ↔ L ≤ e.2.nonce) ↔
      ∀ e ∈ ((idle config signer).after es).pending, L ≤ e.2.nonce →
        ∃ low ∈ ((idle config signer).after es).pending, low.1 ∈ ids ∧
          low.2.nonce ≤ e.2.nonce := by
  have habove : ∀ e ∈ ((idle config signer).after es).pending, e.1 ∈ ids → L ≤ e.2.nonce := by
    rintro ⟨key, entry⟩ hin hkey
    obtain ⟨pair, hlast, hwrite⟩ := run_lastPair es key entry hin
    obtain ⟨pair', hlast', hle⟩ := hlowest.1 key hkey
    obtain rfl := Option.some.inj (hlast.symm.trans hlast')
    rwa [hwrite] at hle
  have hchosen : ∀ {low}, LowestOf ((idle config signer).after es).pending
      (fun key _ => ids.contains key) low → low.1 ∈ ids := fun hlow => by simpa using hlow.chosen
  have hreleased : ∀ e ∈ ((idle config signer).after es).pending, e.1 ∈ released ↔
      ∃ low ∈ ((idle config signer).after es).pending, low.1 ∈ ids ∧ low.2.nonce ≤ e.2.nonce := by
    intro e he
    rw [h.released_iff]
    constructor
    · rintro (hkey | ⟨entry, low, hin, hlow, hle⟩)
      · exact ⟨e, he, hkey, le_rfl⟩
      · have hkeys := run_nodup_keys config signer es
        have hsame := (Table.get?_of_mem hkeys hin).symm.trans (Table.get?_of_mem hkeys he)
        rw [Option.some.inj hsame] at hle
        exact ⟨low, hlow.stored, hchosen hlow, hle⟩
    · rintro ⟨a, ha, hkey, hle⟩
      obtain ⟨low, hlow, hmin⟩ := exists_lowest (fun key _ => ids.contains key) ha
        (by simpa using hkey)
      exact .inr ⟨e.2, low, he, hlow, hmin.trans hle⟩
  constructor
  · intro hall e he hle
    exact (hreleased e he).mp ((hall e he).mpr hle)
  · intro hcovered e he
    rw [hreleased e he]
    constructor
    · rintro ⟨low, hlow, hkey, hle⟩
      exact (habove low hlow hkey).trans hle
    · exact hcovered e he

/-- A call that drops a bundle holds the lane twice. The first time it releases the requests of the
bundle and those of all pairs from the lowest nonce on that one of them is still pending with; the
second time it ends with their ids, each once, and the nonce is read anew. A released request is
pending then only if it was finished again in between. All pairs from the lowest nonce on that the
requests ended with last are released, and no others, exactly where each of these pairs has a
pending one of the bundle below it or at its nonce. While the call waits for the lane, nothing but
its turn takes it further. -/
theorem drop_exact (config : Config) (signer : Signer) (es : List Event) (id : CallId)
    (ids : List Hash) (unused : Table.get? ((idle config signer).after es).calls id = none)
    (es₁ : List Event) (e₁ : Event)
    (first : Obtains config signer id es (.start id (.drop ids)) es₁ e₁)
    (es₂ : List Event) (e₂ : Event) (second : Obtains config signer id es₁ e₁ es₂ e₂) :
    ∃ released,
      (((idle config signer).after es₂).step e₂).2 = some (.released released) ∧
      ((idle config signer).after (es₂ ++ [e₂])).writer.lane.next = none ∧
      BundleDropped ((idle config signer).after es₁) ids
        ((idle config signer).after (es₁ ++ [e₁])) released ∧
      (∃ between, es₂ ++ [e₂] = es₁ ++ [e₁] ++ between ∧
        ∀ key entry, (key, entry) ∈ ((idle config signer).after (es₂ ++ [e₂])).pending →
          key ∈ released → ∃ before e rest pair fee l, between = before ++ e :: rest ∧
            (((idle config signer).after (es₁ ++ [e₁] ++ before)).step e).2 =
              some (.paired pair fee l) ∧ pair.requestId = key) ∧
      (∀ L, LowestPaired config signer es₁ ids L →
        ((∀ e ∈ ((idle config signer).after es₁).pending, e.1 ∈ released ↔ L ≤ e.2.nonce) ↔
          ∀ e ∈ ((idle config signer).after es₁).pending, L ≤ e.2.nonce →
            ∃ low ∈ ((idle config signer).after es₁).pending, low.1 ∈ ids ∧
              low.2.nonce ≤ e.2.nonce)) ∧
      AwaitsTurn config signer id es (.start id (.drop ids)) ∧
      AwaitsTurn config signer id es₁ e₁ := by
  obtain ⟨f, hf⟩ := first.drop_step unused
  obtain ⟨hnext, hline, hstep⟩ := hf _ rfl
  obtain ⟨r', dropped, hgiven, hfree, hbusy⟩ := dropPairs_spec
    (run_nodup_keys config signer es₁) (run_inLine config signer es₁).nodup hnext hline ids
  have hawaits : AwaitsTurn config signer id es₁ e₁ := by
    intro busy more quiet e' ha
    rw [hbusy busy] at hstep
    exact turn_or_abandon (awaits_quietly hstep quiet) rfl ha
  have hdropped : BundleDropped ((idle config signer).after es₁) ids
      ((idle config signer).after (es₁ ++ [e₁])) (joinIds dropped ids) := by
    rw [after_concat, hstep]
    by_cases h : ((idle config signer).after es₁).writer.lane.line.erase id = []
    · have hleft := hgiven.bundleDropped fun lane => (lane.join id).forget.leave id
      rw [hfree h]
      exact BundleDropped.settle hleft id
    · have hleft := hgiven.bundleDropped (·.join id)
      rw [hbusy h]
      exact BundleDropped.settle hleft id
  have hgone : ∀ {key}, key ∈ joinIds dropped ids →
      key ∉ Table.keys ((idle config signer).after (es₁ ++ [e₁])).pending := by
    intro key hin
    rw [hdropped.pending, Table.mem_keys_filter
      (p := fun key => !(joinIds dropped ids).contains key)]
    simp [hin]
  obtain ⟨hresult, hreset⟩ := second.resync_step (fun h => hstep.trans (by rw [hfree h]))
    (fun h => hstep.trans (by rw [hbusy h]))
  obtain ⟨between, hbetween⟩ := second.between
  rw [← after_concat] at hreset
  refine ⟨joinIds dropped ids, hresult, hreset, hdropped, ⟨between, hbetween, ?_⟩,
    fun L => hdropped.from_lowest, drop_awaits unused, hawaits⟩
  intro key entry hin hkey
  rw [hbetween, after_append] at hin
  rcases pending_cases hin with hold | ⟨before, e, rest, pair, fee, l, hsplit, hfinished, hid⟩
  · exact absurd hold (hgone hkey)
  · exact ⟨before, e, rest, pair, fee, l, hsplit, by rw [after_append]; exact hfinished, hid⟩

/-- The first of two pairs is submitted. -/
def Sample.submission : List Event := Sample.rivalry ++ [.submitted [Sample.firstKey]]

theorem Sample.after_submission : ∃ q : Pair, q.write.nonce = 1 ∧
    (idle Sample.config Sample.signer).after submission =
      { idle Sample.config Sample.signer with
        writer := {
          config := Sample.config, signer := Sample.signer, reserved := [rivalKey],
          lane := ⟨some 2, []⟩ }
        active := [(rivalKey, .completed)]
        pending := [(rivalKey, ⟨q, 0⟩)] } := by
  obtain ⟨p, q, -, ⟨hq, -⟩, hr⟩ := after_rivalry
  refine ⟨q, hq, ?_⟩
  rw [submission, after_concat, hr]
  have hne : firstKey ≠ rivalKey := by decide
  simp [step, markSubmitted, Relay.forget, CacheWriter.release, hne.symm]

/-- The lowest nonce of the pair that was submitted is 0. -/
theorem Sample.lowest_submitted :
    LowestPaired Sample.config Sample.signer submission [firstKey] 0 := by
  obtain ⟨p, q, ⟨hp, -⟩, -, hr⟩ := after_rivalry
  obtain ⟨pair, hlast, hwrite⟩ := run_lastPair rivalry firstKey ⟨p, 0⟩
    (by rw [hr]; exact List.mem_cons_self)
  have hlast' : (idle Sample.config Sample.signer).lastPair submission firstKey = some pair := by
    rw [submission, lastPair_concat, hlast]
    rfl
  have hnonce : pair.write.nonce.toNat = 0 := by rw [hwrite, hp]; rfl
  refine ⟨?_, firstKey, List.mem_singleton_self _, pair, hlast', hnonce⟩
  rintro key hkey
  rw [List.mem_singleton.mp hkey]
  exact ⟨pair, hlast', Nat.zero_le _⟩

/-- When the bundle of the submitted pair is dropped, the pair of a higher nonce stays. -/
theorem Sample.rival_stays :
    LowestPaired Sample.config Sample.signer submission [firstKey] 0 ∧
      ∃ released, (((idle Sample.config Sample.signer).after submission).step
          (.start "x" (.drop [firstKey]))).2 = some (.released released) ∧
        ¬ ∀ e ∈ ((idle Sample.config Sample.signer).after submission).pending,
          e.1 ∈ released ↔ 0 ≤ e.2.nonce := by
  obtain ⟨q, hq, hr⟩ := after_submission
  have hunused : Table.get? ((idle Sample.config Sample.signer).after submission).calls "x" =
      none := by
    rw [hr]
    rfl
  have hfree : ((idle Sample.config Sample.signer).after submission).writer.lane.line.erase "x" =
      [] := by
    rw [hr]
    rfl
  obtain ⟨released, hresult, -, -, -, hlowest, -⟩ := drop_exact Sample.config Sample.signer
    submission "x" [firstKey] hunused _ _ (.at_once hfree) _ _ (.at_once hfree)
  refine ⟨lowest_submitted, released, hresult, ?_⟩
  rw [hlowest 0 lowest_submitted, hr]
  intro hcovered
  obtain ⟨low, hlow, hkey, -⟩ := hcovered _ List.mem_cons_self (Nat.zero_le _)
  rw [List.mem_singleton.mp hlow, List.mem_singleton] at hkey
  have hne : rivalKey ≠ firstKey := by decide
  exact hne hkey

end ComputeRelay
