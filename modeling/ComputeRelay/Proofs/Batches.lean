import ComputeRelay.Proofs.Contiguity
import ComputeRelay.Proofs.SteadyWorld
import ComputeRelay.Proofs.WriteOrder

/-! Batches of operations that are processed at the same time in a steady world. However the calls
take their turns, each of them stays on its way to the verdict on its operation, nothing in the
working sets gets in its way, and the pairs carry the nonces from that of the world on. -/

namespace ComputeRelay

open Relay SteadyWorld

namespace Relay

/-- The result that an event brings, under the name of its call. -/
def outcome? (r : Relay) (e : Event) : Option (CallId × Result) :=
  (r.addressee? e).bind fun id => (r.step e).2.map (id, ·)

def results (r : Relay) : List Event → Table CallId Result
  | [] => []
  | e :: es => (r.outcome? e).toList ++ (r.step e).1.results es

theorem results_concat (r : Relay) (es : List Event) (e : Event) :
    r.results (es ++ [e]) = r.results es ++ ((r.after es).outcome? e).toList := by
  induction es generalizing r with
  | nil => simp [results]
  | cons e' es ih => simp [results, ih, after_cons]

def Event.begins? : Event → Option CallId
  | .start id _ => some id
  | _ => none

def begun (es : List Event) : List CallId := es.filterMap Event.begins?

end Relay

def Result.nonce? : Result → Option Word
  | .paired pair _ _ => some pair.write.nonce
  | _ => none

/-- The nonces of the pairs that calls ended with, in the order in which they ended. -/
def nonces (results : Table CallId Result) : List Word := results.filterMap (·.2.nonce?)

theorem nonces_concat (results : Table CallId Result) (id : CallId) (result : Result) :
    nonces (results ++ [(id, result)]) = nonces results ++ result.nonce?.toList := by
  cases h : result.nonce? <;> simp [nonces, h]

variable {config : Config} {signer : Signer} {w : SteadyWorld config signer} {r : Relay}
  {e : Event} {id : CallId} {op : Operation} {batch : Table CallId Operation}

namespace SteadyWorld

/-- What may happen while a batch is processed: one of its calls starts, gets its turn, or gets the
world's answer to what it asks, or time passes in which no pair expires. No call is timed out. -/
def Allows (w : SteadyWorld config signer) (batch : Table CallId Operation) (r : Relay) :
    Event → Prop
  | .start id (.process op) => (id, op) ∈ batch
  | .turn _ => True
  | .reply id reply => ∃ stage query, Table.get? r.calls id = some stage ∧
      stage.query? r.systemAccount = some query ∧ reply = w.answer query
  | .tick ms => Calm (r.advance ms)
  | _ => False

/-- A fresh relay processes a batch, in one of the possible orders. -/
structure Plays (w : SteadyWorld config signer) (batch : Table CallId Operation)
    (es : List Event) : Prop where
  allowed : Throughout (w.Allows batch) (idle config signer) es
  once : (begun es).Nodup

/-- The calls of a batch have different names, and its operations make different requests. -/
structure Distinct (w : SteadyWorld config signer) (batch : Table CallId Operation) : Prop where
  names : (Table.keys batch).Nodup
  keys : ((batch.map Prod.snd).filterMap w.key?).Nodup

theorem Distinct.op_eq {op' : Operation} (h : w.Distinct batch) (hop : (id, op) ∈ batch)
    (hop' : (id, op') ∈ batch) : op = op' := by
  have hget := Table.get?_of_mem h.names hop
  have hget' := Table.get?_of_mem h.names hop'
  exact Option.some.inj (hget.symm.trans hget')

theorem Distinct.id_eq {id' : CallId} {op' : Operation} {key : Hash} (h : w.Distinct batch)
    (hop : (id, op) ∈ batch) (hop' : (id', op') ∈ batch) (hkey : w.key? op = some key)
    (hkey' : w.key? op' = some key) : id = id' := by
  let apart (a b : CallId × Operation) : Prop :=
    ∀ key, w.key? a.2 = some key → ∀ key', w.key? b.2 = some key' → key ≠ key'
  have hsymm : Std.Symm apart :=
    ⟨fun a b hab key hkey key' hkey' => (hab key' hkey' key hkey).symm⟩
  have hapart : batch.Pairwise apart :=
    List.pairwise_map.mp (List.pairwise_filterMap.mp h.keys)
  by_contra hne
  have hdiffer : (id, op) ≠ (id', op') := fun heq => hne (congrArg Prod.fst heq)
  exact hapart.forall hop hop' hdiffer key hkey key hkey' rfl

/-- The pairs carry the nonces from the world's nonce on, and the next of them is the lane's. -/
structure Numbered (w : SteadyWorld config signer) (next : Option Word) (used : List Word) :
    Prop where
  range : used = noncesFrom w.nonce used.length
  coming : next = none ∧ used = [] ∨ next = some (w.nonce + BitVec.ofNat 256 used.length)

theorem Numbered.kept {told next next' : Option Word} {used : List Word}
    (h : w.Numbered next used) (hnext : NextKept [] told next next')
    (htold : ∀ nonce, told = some nonce → nonce = w.nonce) : w.Numbered next' used := by
  cases hnext with
  | same => exact h
  | lowered some_dropped => exact absurd rfl some_dropped
  | learned heard =>
    rcases h.coming with ⟨-, hnil⟩ | hsome
    · subst hnil
      refine ⟨rfl, .inr ?_⟩
      rw [htold _ heard]
      simp
    · cases hsome

theorem Numbered.commit {nonce : Word} {used : List Word} (h : w.Numbered (some nonce) used) :
    w.Numbered (some (nonce + 1)) (used ++ [nonce]) := by
  rcases h.coming with ⟨hnone, -⟩ | hnext
  · cases hnone
  · obtain rfl := Option.some.inj hnext
    refine ⟨?_, .inr ?_⟩
    · rw [List.length_append, List.length_singleton, noncesFrom_concat, ← h.range]
    · rw [List.length_append, List.length_singleton, BitVec.ofNat_add, BitVec.add_assoc]
      rfl

/-- Where a batch stands after a run that has started the calls `begun` and brought `results`. -/
structure Underway (w : SteadyWorld config signer) (batch : Table CallId Operation) (r : Relay)
    (begun : List CallId) (results : Table CallId Result) : Prop where
  calm : Calm r
  calls : ∀ id stage, Table.get? r.calls id = some stage →
    ∃ op, (id, op) ∈ batch ∧ w.OnWay op stage
  unended : ∀ id stage, Table.get? r.calls id = some stage → id ∉ Table.keys results
  ended : ∀ id result, (id, result) ∈ results →
    ∃ op, (id, op) ∈ batch ∧ result.blanked = (w.verdict op).blanked
  once : (Table.keys results).Nodup
  begun_iff : ∀ id, id ∈ begun ↔ Table.contains r.calls id = true ∨ id ∈ Table.keys results
  pairs : ∀ key ∈ Table.keys r.pending,
    ∃ id op, (id, op) ∈ batch ∧ w.key? op = some key ∧ id ∈ Table.keys results
  stored : (nonces results).length = (Table.keys r.pending).length
  numbered : w.Numbered r.writer.lane.next (nonces results)

variable {begun : List CallId} {results : Table CallId Result}

theorem idle_underway (w : SteadyWorld config signer) (batch : Table CallId Operation) :
    w.Underway batch (idle config signer) [] [] := by
  refine ⟨nofun, ?_, ?_, nofun, List.nodup_nil, ?_, nofun, rfl, rfl, .inl ⟨rfl, rfl⟩⟩
  · intro id stage hs
    cases hs
  · intro id stage hs
    cases hs
  · intro id
    simp [idle, Table.contains, Table.get?, Table.keys]

/-- The request that a call on its way works on is that of its operation. -/
theorem OnWay.key_of_candidate {stage : Stage} {c : Candidate} (h : w.OnWay op stage)
    (hc : stage.candidate? = some c) : w.key? op = some c.requestId := by
  cases h.processes with
  | reading => cases hc
  | simulating => cases hc
  | working found works past =>
    have hrequest : w.request? op = some c.request := by
      rw [found]
      cases stage <;> first | (cases hc; cases works; rfl) | cases hc
    rw [key?, hrequest]
    rfl

/-- No other call is in the way of one that is about to take its request on, or to reserve it. -/
theorem Underway.admits {stage : Stage} (h : w.Underway batch r begun results)
    (hd : w.Distinct batch) (hsets : SetsAgree [] r) (hs : Table.get? r.calls id = some stage) :
    w.Admits r stage := by
  obtain ⟨op, hop, honWay⟩ := h.calls id stage hs
  cases stage with
  | simulating op' block deadline =>
    obtain rfl : op' = op := by
      cases honWay.processes with
      | simulating => rfl
      | working found works => cases works
    intro key hkey
    rw [Table.contains_eq_false_iff, Option.eq_none_iff_forall_ne_some]
    intro state hstate
    -- the row would belong to another call, or to the pair of one, with the same request
    have hactive : key ∈ Table.keys r.active := Table.mem_keys_iff.mpr ⟨state, hstate⟩
    rcases (hsets.row_iff key List.not_mem_nil).mp hactive with ⟨k, c, hc, hid⟩ | hpending
    · obtain ⟨stage', hs', hc'⟩ := Option.bind_eq_some_iff.mp hc
      obtain ⟨op'', hop', honWay'⟩ := h.calls k stage' hs'
      have hkey' := honWay'.key_of_candidate hc'
      rw [hid] at hkey'
      obtain rfl := hd.id_eq hop hop' hkey hkey'
      obtain rfl := Option.some.inj (hs.symm.trans hs')
      cases hc'
    · obtain ⟨k, op'', hop', hkey', hended⟩ := h.pairs key hpending
      obtain rfl := hd.id_eq hop hop' hkey hkey'
      exact h.unended id _ hs hended
  | asking c registration =>
    have hc : r.candidate? id = some c := by rw [Relay.candidate?, hs]; rfl
    show r.writer.isReserved c.requestId = false
    rw [CacheWriter.isReserved, List.contains_eq_mem, decide_eq_false_iff_not]
    intro hreserved
    rcases (hsets.reserved_iff _).mp hreserved with hpending | ⟨k, c', hc', hheld, hid⟩
    · exact hsets.not_pending id c hc hpending
    · obtain rfl := hsets.one_call k id c' c hc' hc hid
      rw [Relay.hasReserved, hs] at hheld
      cases hheld
  | _ => trivial

/-- No pair is dropped as long as none has expired. -/
theorem footprint_kept {told : Option Word} {step : Relay × Progress} {own : Option Candidate}
    (calm : Calm r) (h : Footprint r told step own) (unpaired : step.2.isPaired = false) :
    (∀ key, Table.get? step.1.pending key = Table.get? r.pending key) ∧
      NextKept [] told r.writer.lane.next step.1.writer.lane.next := by
  cases own with
  | none =>
    obtain ⟨dropped, ht, houtlived⟩ := h
    -- a pair is dropped only behind one that has expired
    have hnil : dropped = [] := by
      rw [List.eq_nil_iff_forall_not_mem]
      intro key hin
      obtain ⟨entry, old, -, hold, hexpired, -⟩ := houtlived key hin
      cases (calm old hold).symm.trans hexpired
    subst hnil
    exact ⟨fun key => ht.pairs key List.not_mem_nil, (ht.of_untold told).next⟩
  | some c =>
    have ht := h.touches unpaired
    exact ⟨fun key => ht.pairs key List.not_mem_nil, ht.next⟩

theorem step_calm (calm : Calm r) (hconfig : (r.step e).1.config = r.config)
    (still : elapsed e = 0) (hattach : ∀ signed order, e ≠ .attach signed order)
    (ttl : 0 < r.config.pendingTtlMs.toNat) : Calm (r.step e).1 := by
  have hnow : (r.step e).1.now = r.now := by rw [step_now, still, Nat.add_zero]
  have hexpired : ∀ entry, (r.step e).1.expired (r.step e).1.now entry = r.expired r.now entry := by
    intro entry
    rw [Relay.expired, Relay.expired, hconfig, hnow]
  intro entry hin
  rw [hexpired]
  rcases (step_turnover r e).mem_cases hin with
    hold | ⟨signed, order, -, -, hattached, -⟩ | ⟨pair, -, -, -, hnew⟩
  · exact calm entry hold
  · exact absurd hattached (hattach signed order)
  · rw [hnew, Relay.expired, Nat.sub_self, decide_eq_false_iff_not]
    omega

/-- A step leaves the pending pairs alone, and numbers none. -/
structure Keeps (w : SteadyWorld config signer) (r r' : Relay) (used : List Word) : Prop where
  keys : ∀ key, key ∈ Table.keys r'.pending ↔ key ∈ Table.keys r.pending
  length : (Table.keys r'.pending).length = (Table.keys r.pending).length
  numbered : w.Numbered r'.writer.lane.next used

theorem Underway.waits {r' : Relay} {stage stage' : Stage} (h : w.Underway batch r begun results)
    (hs : Table.get? r.calls id = some stage) (hop : (id, op) ∈ batch)
    (onWay : w.OnWay op stage')
    (hcalls : ∀ k, Table.get? r'.calls k = if id = k then some stage' else Table.get? r.calls k)
    (calm : Calm r') (keeps : w.Keeps r r' (nonces results)) :
    w.Underway batch r' begun results := by
  refine ⟨calm, ?_, ?_, h.ended, h.once, ?_, ?_, h.stored.trans keeps.length.symm,
    keeps.numbered⟩
  · intro k stage'' hk
    rw [hcalls] at hk
    split at hk
    · rename_i heq
      cases hk
      exact heq ▸ ⟨op, hop, onWay⟩
    · exact h.calls k stage'' hk
  · intro k stage'' hk
    rw [hcalls] at hk
    split at hk
    · rename_i heq
      exact heq ▸ h.unended id stage hs
    · exact h.unended k stage'' hk
  · intro k
    rw [h.begun_iff]
    by_cases heq : id = k
    · subst heq
      simp [Table.contains, hcalls, hs]
    · simp [Table.contains, hcalls, heq]
  · intro key hin
    exact h.pairs key ((keeps.keys key).mp hin)

theorem Underway.ends {r' : Relay} {stage : Stage} {result : Result}
    (h : w.Underway batch r begun results) (hs : Table.get? r.calls id = some stage)
    (hop : (id, op) ∈ batch) (alike : result.blanked = (w.verdict op).blanked)
    (hcalls : ∀ k, Table.get? r'.calls k = if id = k then none else Table.get? r.calls k)
    (calm : Calm r')
    (hpending : ∀ key, key ∈ Table.keys r'.pending →
      key ∈ Table.keys r.pending ∨ w.key? op = some key)
    (hlength : (Table.keys r'.pending).length =
      (Table.keys r.pending).length + result.nonce?.toList.length)
    (numbered : w.Numbered r'.writer.lane.next (nonces results ++ result.nonce?.toList)) :
    w.Underway batch r' begun (results ++ [(id, result)]) := by
  have hkeys : Table.keys (results ++ [(id, result)]) = Table.keys results ++ [id] := by
    simp [Table.keys]
  have hnew := h.unended id stage hs
  refine ⟨calm, ?_, ?_, ?_, ?_, ?_, ?_, ?_, ?_⟩
  · intro k stage' hk
    rw [hcalls] at hk
    split at hk
    · cases hk
    · exact h.calls k stage' hk
  · intro k stage' hk
    rw [hcalls] at hk
    split at hk
    · cases hk
    · rename_i hne
      rw [hkeys, List.mem_append, List.mem_singleton, not_or]
      exact ⟨h.unended k stage' hk, fun heq => hne heq.symm⟩
  · intro k result' hin
    rcases List.mem_append.mp hin with hold | hlast
    · exact h.ended k result' hold
    · obtain ⟨rfl, rfl⟩ := Prod.mk.inj (List.mem_singleton.mp hlast)
      exact ⟨op, hop, alike⟩
  · rw [hkeys, List.nodup_append]
    refine ⟨h.once, List.nodup_singleton id, ?_⟩
    rintro k hk _ hid rfl
    exact hnew (List.mem_singleton.mp hid ▸ hk)
  · intro k
    rw [h.begun_iff, hkeys, List.mem_append, List.mem_singleton]
    by_cases heq : id = k
    · subst heq
      simp [Table.contains, hs]
    · simp [Table.contains, hcalls, heq, Ne.symm heq]
  · intro key hin
    rw [hkeys]
    rcases hpending key hin with hold | hown
    · obtain ⟨k, op', hop', hkey, hended⟩ := h.pairs key hold
      exact ⟨k, op', hop', hkey, List.mem_append_left _ hended⟩
    · exact ⟨id, op, hop, hown, List.mem_append_right _ (List.mem_singleton_self id)⟩
  · rw [nonces_concat, List.length_append, h.stored, hlength]
  · rw [nonces_concat]
    exact numbered

/-- What holds of a relay that a batch is processed on, whatever has happened so far. -/
structure Settled (config : Config) (signer : Signer) (r : Relay) : Prop where
  config : r.config = config
  signer : r.writer.signer = signer
  backed : ∀ id stage, Table.get? r.calls id = some stage →
    ∃ log, stage.Backed r.config r.writer.signer id log
  reachable : Reachable r
  sets : SetsAgree [] r
  keys : (Table.keys r.pending).Nodup

theorem addressee_turn {stage : Stage} (hs : Table.get? r.calls id = some stage)
    (first : r.writer.lane.isHeldBy id = true) : r.addressee? (.turn id) = some id := by
  simp [addressee?, Table.contains, hs, first]

theorem step_turn {stage : Stage} (hs : Table.get? r.calls id = some stage)
    (first : r.writer.lane.isHeldBy id = true) :
    r.step (.turn id) = settle id (r.resumeTurn id stage) := by
  simp [step, hs, first]

theorem step_reply {stage : Stage} (hs : Table.get? r.calls id = some stage) (reply : Reply) :
    r.step (.reply id reply) = settle id (r.resumeReply id stage reply) := by
  simp [step, hs]

theorem outcome?_settle {step : Relay × Progress} (ha : r.addressee? e = some id)
    (hsettle : r.step e = settle id step) :
    r.outcome? e = step.2.result?.map (id, ·) := by
  rw [outcome?, ha, Option.bind_some, hsettle, settle_result]

theorem isPaired_eq_false {result : Result} (h : result.nonce? = none) :
    (Progress.finished result).isPaired = false := by
  cases result <;> first | rfl | cases h

theorem OnWay.isRequest {stage : Stage} (h : w.OnWay op stage) : stage.isRequest = true := by
  cases h.processes with
  | reading => rfl
  | simulating => rfl
  | working found works => cases stage <;> first | rfl | cases works

theorem Underway.keeps {stage : Stage} {step : Relay × Progress}
    (h : w.Underway batch r begun results) (hr : Settled config signer r)
    (hs : Table.get? r.calls id = some stage) (onWay : w.OnWay op stage)
    (resumed : Resumed r id stage e step) (hsettle : r.step e = settle id step)
    (unpaired : step.2.isPaired = false) (keys : (Table.keys (r.step e).1.pending).Nodup)
    (htold : ∀ nonce, r.teaches? e = some nonce → nonce = w.nonce) :
    w.Keeps r (r.step e).1 (nonces results) := by
  have hstock : (r.step e).1.stock = step.1.stock := by rw [hsettle, settle_stock]
  have hpending : (r.step e).1.pending = step.1.pending := congrArg Stock.pending hstock
  have hnext : (r.step e).1.writer.lane.next = step.1.writer.lane.next := congrArg Stock.next hstock
  have hfoot := resumed.footprint onWay.isRequest hs hr.reachable.reads
    fun since hsince => hr.reachable.since id stage since hs hsince
  obtain ⟨hget, hnextKept⟩ := footprint_kept h.calm hfoot unpaired
  have hmem : ∀ key, key ∈ Table.keys (r.step e).1.pending ↔ key ∈ Table.keys r.pending := by
    intro key
    rw [Table.mem_keys_iff, Table.mem_keys_iff, hpending, hget]
  refine ⟨hmem, ?_, ?_⟩
  · exact ((List.perm_ext_iff_of_nodup keys hr.keys).mpr hmem).length_eq
  · rw [hnext]
    exact h.numbered.kept hnextKept htold

/-- The pair that a step brings uses the lane's nonce up, and its request is the operation's own and
not pending yet. -/
structure Delivers (w : SteadyWorld config signer) (op : Operation) (r r' : Relay) (pair : Pair) :
    Prop where
  granted : r.writer.lane.next = some pair.write.nonce
  next : r'.writer.lane.next = some (pair.write.nonce + 1)
  own : w.key? op = some pair.requestId
  keys : Table.keys r'.pending = Table.keys r.pending ++ [pair.requestId]

theorem step_delivers {stage : Stage} {pair : Pair} {fee : FeeAdjustment} {l : Lifecycle}
    (hr : Settled config signer r) (ha : r.addressee? e = some id)
    (hs : Table.get? r.calls id = some stage) (onWay : w.OnWay op stage)
    (hresult : (r.step e).2 = some (.paired pair fee l)) :
    w.Delivers op r (r.step e).1 pair := by
  have hturn := step_turnover r e
  rw [hresult] at hturn
  obtain ⟨⟨k, c, answer, prepared, outcome, hfinishes⟩, hstock⟩ := hturn.finishes
  obtain rfl : k = id := by
    have hexpects : (Stage.resimulating c answer prepared).expects (.simulation (.ok outcome)) =
        true := rfl
    have haddressed := addressee_reply hfinishes.found hexpects
    rw [← hfinishes.came] at haddressed
    exact Option.some.inj (haddressed.symm.trans ha)
  obtain rfl := Option.some.inj (hfinishes.found.symm.trans hs)
  have hc : r.candidate? k = some c := by
    rw [Relay.candidate?, hs]
    rfl
  have hid : pair.requestId = c.requestId := by
    obtain ⟨-, -, rfl⟩ := Pair.create_eq_ok_iff.mp hfinishes.created
    rfl
  have hplace := congrArg Hold.place hfinishes.holds
  have hpending : (r.step e).1.pending =
      Table.insert r.pending pair.requestId ⟨pair, r.now⟩ := congrArg Stock.pending hstock
  refine ⟨?_, congrArg Stock.next hstock, ?_, ?_⟩
  · exact hr.reachable.reads.inLine.known k _ hplace
  · rw [hid]
    exact onWay.key_of_candidate rfl
  · rw [hpending, Table.keys_insert, if_neg]
    rw [hid]
    exact hr.sets.not_pending k c hc

/-- A call that goes further keeps the batch going, with its result if it ends. -/
theorem Underway.advance {stage : Stage} {step : Relay × Progress} {rank : Nat}
    (h : w.Underway batch r begun results) (hr : Settled config signer r)
    (ha : r.addressee? e = some id) (hs : Table.get? r.calls id = some stage)
    (hop : (id, op) ∈ batch) (onWay : w.OnWay op stage)
    (resumed : Resumed r id stage e step) (hsettle : r.step e = settle id step)
    (advances : w.Advances op rank step.2) (calm : Calm (r.step e).1)
    (keys : (Table.keys (r.step e).1.pending).Nodup)
    (htold : ∀ nonce, r.teaches? e = some nonce → nonce = w.nonce) :
    w.Underway batch (r.step e).1 begun (results ++ (step.2.result?.map (id, ·)).toList) := by
  have hcalls : ∀ k, Table.get? (r.step e).1.calls k =
      if id = k then step.2.stage? else Table.get? r.calls k := by
    intro k
    rw [hsettle, get?_settle, resumed.goes.calls]
  have hkeeps : step.2.isPaired = false → w.Keeps r (r.step e).1 (nonces results) :=
    fun unpaired => h.keeps hr hs onWay resumed hsettle unpaired keys htold
  obtain ⟨r', p⟩ := step
  cases p with
  | waiting stage' =>
    obtain ⟨hprocesses, -⟩ := advances.later stage' rfl
    have honWay : w.OnWay op stage' := ⟨advances.heads, hprocesses⟩
    simpa [Progress.result?] using h.waits hs hop honWay hcalls calm (hkeeps rfl)
  | finished result =>
    have halike : result.blanked = (w.verdict op).blanked := by
      cases advances.heads with
      | finished alike => exact alike
    cases hnonce : result.nonce? with
    | none =>
      have hk := hkeeps (isPaired_eq_false hnonce)
      refine h.ends hs hop halike hcalls calm (fun key hin => .inl ((hk.keys key).mp hin)) ?_ ?_
      · rw [hnonce, hk.length]
        rfl
      · rw [hnonce, Option.toList_none, List.append_nil]
        exact hk.numbered
    | some nonce =>
      cases result with
      | paired pair fee l =>
        cases hnonce
        have hresult : (r.step e).2 = some (.paired pair fee l) := by
          rw [hsettle, settle_result]
          rfl
        have hd := step_delivers hr ha hs onWay hresult
        refine h.ends hs hop halike hcalls calm ?_ ?_ ?_
        · intro key hin
          rw [hd.keys, List.mem_append, List.mem_singleton] at hin
          rcases hin with hold | rfl
          · exact .inl hold
          · exact .inr hd.own
        · rw [hd.keys, List.length_append]
          rfl
        · have hnumbered := h.numbered
          rw [hd.granted] at hnumbered
          rw [hd.next]
          exact hnumbered.commit
      | _ => cases hnonce

theorem outcome?_of_none (h : (r.step e).2 = none) : r.outcome? e = none := by
  rw [outcome?, h]
  cases r.addressee? e <;> rfl

/-- A nonce that the holder of the lane is told is that of the world. -/
theorem teaches?_eq {nonce : Word} (allows : w.Allows batch r e)
    (taught : r.teaches? e = some nonce) : nonce = w.nonce := by
  obtain ⟨id, rfl⟩ := event_of_teaches taught
  obtain ⟨stage, query, -, -, hreply⟩ := allows
  cases query <;> cases hreply
  rfl

theorem Underway.start (h : w.Underway batch r begun results) (hop : (id, op) ∈ batch)
    (hnew : id ∉ begun) :
    w.Underway batch (r.step (.start id (.process op))).1 (begun ++ [id]) results ∧
      (r.step (.start id (.process op))).2 = none := by
  have hunused : Table.get? r.calls id = none ∧ id ∉ Table.keys results := by
    rw [h.begun_iff, not_or] at hnew
    rw [← Table.contains_eq_false_iff]
    exact ⟨by simpa using hnew.1, hnew.2⟩
  obtain ⟨hfree, hunended⟩ := hunused
  let stage : Stage := .readingBlock op (r.now + r.config.requestTimeoutMs.toNat)
  have hstep : r.step (.start id (.process op)) =
      ({ r with calls := Table.insert r.calls id stage }, none) := by
    simp only [step, Table.contains, hfree]
    rfl
  rw [hstep]
  refine ⟨⟨h.calm, ?_, ?_, h.ended, h.once, ?_, h.pairs, h.stored, h.numbered⟩, rfl⟩
  · intro k stage' hk
    rw [Table.get?_insert] at hk
    split at hk
    · rename_i heq
      cases hk
      exact heq ▸ ⟨op, hop, .waiting rfl rfl, .reading _⟩
    · exact h.calls k stage' hk
  · intro k stage' hk
    rw [Table.get?_insert] at hk
    split at hk
    · rename_i heq
      exact heq ▸ hunended
    · exact h.unended k stage' hk
  · intro k
    rw [List.mem_append, List.mem_singleton, h.begun_iff]
    by_cases heq : id = k
    · subst heq
      simp [Table.contains, Table.get?_insert]
    · simp [Table.contains, Table.get?_insert, heq, Ne.symm heq]

/-- Whatever may happen keeps the batch going. -/
theorem step_underway (h : w.Underway batch r begun results) (hd : w.Distinct batch)
    (hr : Settled config signer r) (ttl : 0 < config.pendingTtlMs.toNat)
    (allows : w.Allows batch r e) (new : ∀ id ∈ e.begins?, id ∉ begun)
    (hconfig : (r.step e).1.config = config) (keys : (Table.keys (r.step e).1.pending).Nodup) :
    w.Underway batch (r.step e).1 (begun ++ e.begins?.toList)
      (results ++ (r.outcome? e).toList) := by
  have hcalm : elapsed e = 0 → Calm (r.step e).1 := by
    intro still
    refine step_calm h.calm (hconfig.trans hr.config.symm) still ?_ (hr.config ▸ ttl)
    rintro signed order rfl
    exact allows
  have hidle : (r.step e) = (r, none) → e.begins? = none →
      w.Underway batch (r.step e).1 (begun ++ e.begins?.toList)
        (results ++ (r.outcome? e).toList) := by
    intro hstep hbegins
    rw [outcome?_of_none (by rw [hstep]), hbegins, hstep]
    simpa using h
  cases e with
  | start id job =>
    cases job with
    | process op =>
      obtain ⟨hnext, hnone⟩ := h.start allows (new id rfl)
      rw [outcome?_of_none hnone, Option.toList_none, List.append_nil]
      exact hnext
    | _ => cases allows
  | turn id =>
    cases hs : Table.get? r.calls id with
    | none => exact hidle (by simp [step, hs]) rfl
    | some stage =>
      cases hfirst : r.writer.lane.isHeldBy id with
      | false => exact hidle (by simp [step, hs, hfirst]) rfl
      | true =>
        have ha := addressee_turn hs hfirst
        have hsettle := step_turn hs hfirst
        obtain ⟨op, hop, honWay⟩ := h.calls id stage hs
        obtain ⟨log, hb⟩ := hr.backed id stage hs
        rcases turn_advances hr.config hr.signer hb honWay hfirst with hsame | hadvances
        · exact hidle (by rw [hsettle, hsame, settle_unmoved hs]) rfl
        · have hnext := h.advance hr ha hs hop honWay (.turn hfirst) hsettle hadvances
            (hcalm rfl) keys fun nonce => teaches?_eq allows
          rw [outcome?_settle ha hsettle]
          simpa [Event.begins?] using hnext
  | reply id reply =>
    have hallows := allows
    obtain ⟨stage, query, hs, hasks, rfl⟩ := allows
    have ha : r.addressee? (.reply id (w.answer query)) = some id :=
      addressee_reply hs (expects_answer hasks)
    have hsettle := step_reply hs (w.answer query)
    obtain ⟨op, hop, honWay⟩ := h.calls id stage hs
    obtain ⟨log, hb⟩ := hr.backed id stage hs
    have hadmits := h.admits hd hr.sets hs
    have hadvances := reply_advances id hr.config hr.signer hb honWay hasks h.calm hadmits
    have hnext := h.advance hr ha hs hop honWay (.reply (expects_answer hasks)) hsettle hadvances
      (hcalm rfl) keys fun nonce => teaches?_eq hallows
    rw [outcome?_settle ha hsettle]
    simpa [Event.begins?] using hnext
  | tick ms =>
    have hnone : r.outcome? (.tick ms) = none := outcome?_of_none rfl
    rw [hnone, Option.toList_none, List.append_nil]
    have hnext : w.Underway batch (r.advance ms) (begun ++ []) results := by
      rw [List.append_nil]
      exact { h with calm := allows }
    exact hnext
  | timeout => cases allows
  | abandon => cases allows
  | attach => cases allows
  | submitted => cases allows

theorem Allows.sparesInFlight (allows : w.Allows batch r e) (h : w.Underway batch r begun results) :
    SparesInFlight r e := by
  have hnil : r.forgets e = [] := by
    cases e with
    | start id job => cases job <;> first | rfl | cases allows
    | turn id =>
      cases hs : Table.get? r.calls id with
      | none => simp [forgets, hs]
      | some stage =>
        obtain ⟨op, -, honWay⟩ := h.calls id stage hs
        cases honWay.processes with
        | reading => simp [forgets, hs]
        | simulating => simp [forgets, hs]
        | working found works => cases stage <;> first | (simp [forgets, hs]; done) | cases works
    | submitted => cases allows
    | _ => rfl
  intro key hin
  rw [hnil] at hin
  cases hin

theorem begun_concat (es : List Event) (e : Event) :
    Relay.begun (es ++ [e]) = Relay.begun es ++ e.begins?.toList := by
  cases h : e.begins? <;> simp [Relay.begun, h]

theorem Plays.of_concat {es : List Event} (h : w.Plays batch (es ++ [e])) :
    w.Plays batch es ∧ w.Allows batch ((idle config signer).after es) e ∧
      ∀ id ∈ e.begins?, id ∉ Relay.begun es := by
  obtain ⟨hallowed, hlast⟩ := throughout_concat.mp h.allowed
  have honce := h.once
  rw [begun_concat, List.nodup_append] at honce
  obtain ⟨hbefore, -, hapart⟩ := honce
  refine ⟨⟨hallowed, hbefore⟩, hlast, ?_⟩
  intro id hid hin
  exact hapart id hin id (by simpa using hid) rfl

theorem Plays.concat {es : List Event} (h : w.Plays batch es)
    (allows : w.Allows batch ((idle config signer).after es) e)
    (new : ∀ id ∈ e.begins?, id ∉ Relay.begun es) : w.Plays batch (es ++ [e]) := by
  refine ⟨throughout_concat.mpr ⟨h.allowed, allows⟩, ?_⟩
  rw [begun_concat, List.nodup_append]
  refine ⟨h.once, by cases e.begins? <;> simp, ?_⟩
  rintro id hin id' hid rfl
  exact new id (by simpa using hid) hin

theorem unabandoned {es : List Event} (h : Throughout (w.Allows batch) r es) (id : CallId) :
    Event.abandon id ∉ es := by
  induction es generalizing r with
  | nil => exact List.not_mem_nil
  | cons e es ih =>
    rw [List.mem_cons, not_or]
    refine ⟨?_, ih h.2⟩
    rintro rfl
    exact h.1

theorem run_settled {es : List Event} (plays : w.Plays batch es)
    (spares : Throughout SparesInFlight (idle config signer) es) :
    Settled config signer ((idle config signer).after es) := by
  obtain ⟨hconfig, hsigner, hb⟩ := run_backed config signer es
  refine ⟨hconfig, hsigner, ?_, run_reachable config signer es, ?_, run_nodup_keys config signer es⟩
  · intro id stage hs
    rw [hconfig, hsigner]
    exact ⟨_, hb id stage hs⟩
  · have hsets := run_setsAgree spares
    rwa [letGo_eq_nil fun id => unabandoned plays.allowed id] at hsets

theorem run_underway {es : List Event} (hd : w.Distinct batch) (ttl : 0 < config.pendingTtlMs.toNat)
    (plays : w.Plays batch es) :
    w.Underway batch ((idle config signer).after es) (Relay.begun es)
        ((idle config signer).results es) ∧
      Throughout SparesInFlight (idle config signer) es := by
  induction es using List.reverseRecOn with
  | nil => exact ⟨idle_underway w batch, trivial⟩
  | append_singleton es e ih =>
    obtain ⟨hbefore, hallows, hnew⟩ := plays.of_concat
    obtain ⟨hunderway, hspares⟩ := ih hbefore
    have hconfig := (run_backed config signer (es ++ [e])).1
    have hkeys := run_nodup_keys config signer (es ++ [e])
    rw [after_concat] at hconfig hkeys
    refine ⟨?_, throughout_concat.mpr ⟨hspares, hallows.sparesInFlight hunderway⟩⟩
    rw [after_concat, begun_concat, results_concat]
    exact step_underway hunderway hd (run_settled hbefore hspares) ttl hallows hnew hconfig hkeys

end SteadyWorld

end ComputeRelay
