import ComputeRelay.Proofs.Answerable
import ComputeRelay.Proofs.Duplicates

/-! Forgetting the id of a request that a call has reserved. The call goes on, and one that repeats
what the first call heard reserves the same request beside it. -/

namespace ComputeRelay

open Relay

variable {config : Config} {signer : Signer}

/-- No call is in the way of reserving a request. -/
structure Shared.Free (s : Shared) (key : Hash) : Prop where
  reserved : key ∉ s.reserved
  active : Table.get? s.active key = none

theorem Shared.free_forget (s : Shared) {requestIds : List Hash} {key : Hash}
    (hin : key ∈ requestIds) : (s.forget requestIds).Free key := by
  refine ⟨?_, ?_⟩
  · rw [mem_reserved_forget]
    exact fun h => h.2 hin
  · rw [get?_active_forget, if_pos hin]

theorem Shared.Free.forget {s : Shared} {key : Hash} (hf : s.Free key) (requestIds : List Hash) :
    (s.forget requestIds).Free key := by
  refine ⟨?_, ?_⟩
  · rw [mem_reserved_forget]
    exact fun h => hf.reserved h.1
  · rw [get?_active_forget, hf.active, ite_self]

theorem settle_shared (id : CallId) (step : Relay × Progress) :
    (settle id step).1.shared = step.1.shared := by
  obtain ⟨r, progress⟩ := step
  cases progress <;> rfl

theorem dropPairs_free (r : Relay) (id : CallId) {requestIds : List Hash} {key : Hash}
    (hin : key ∈ requestIds) : (r.dropPairs id requestIds).1.shared.Free key := by
  have hfree : ∀ r' : Relay, (r'.forget requestIds).shared.Free key :=
    fun r' => r'.shared.free_forget hin
  unfold Relay.dropPairs
  simp only
  split
  · exact ⟨(hfree _).reserved, (hfree _).active⟩
  · exact ⟨(hfree _).reserved, (hfree _).active⟩

/-- What an event forgets is free afterwards, and the event takes no call further that has
reserved its request. -/
theorem forgets_spec {r : Relay} {e : Event} {key : Hash} (hin : key ∈ r.forgets e) :
    (r.step e).1.shared.Free key ∧ ((r.step e).1.calls = r.calls ∨
      ∃ id, r.addressee? e = some id ∧ r.hasReserved id = false) := by
  cases e with
  | submitted requestIds => exact ⟨r.shared.free_forget hin, .inl rfl⟩
  | start id job =>
    cases job with
    | drop requestIds =>
      simp only [forgets] at hin
      split at hin
      · rename_i hok
        rw [Bool.and_eq_true, Bool.not_eq_true'] at hok
        obtain ⟨hfree, hfirst⟩ := hok
        have hfirst' : (r.modifyLane (·.join id)).writer.lane.isHeldBy id = true := hfirst
        have hnone := Table.contains_eq_false_iff.mp hfree
        refine ⟨?_, .inr ⟨id, by simp [addressee?, hfree], by simp [hasReserved, hnone]⟩⟩
        simp only [step, hfree, Relay.begin, hfirst', if_true, Bool.false_eq_true, if_false,
          settle_shared]
        exact dropPairs_free _ id hin
      · simp at hin
    | process op => simp [forgets] at hin
    | processSimulated op outcome => simp [forgets] at hin
    | expire => simp [forgets] at hin
  | turn id =>
    simp only [forgets] at hin
    split at hin
    · rename_i requestIds hs
      split at hin
      · rename_i hfirst
        refine ⟨?_, .inr ⟨id, ?_, ?_⟩⟩
        · simp only [step, hs, hfirst, if_true, settle_shared, resumeTurn]
          exact dropPairs_free _ id hin
        · simp [addressee?, Table.contains, hs, hfirst]
        · simp [hasReserved, hs, Stage.hasReserved]
      · simp at hin
    · simp at hin
  | reply id reply => simp [forgets] at hin
  | timeout id => simp [forgets] at hin
  | abandon id => simp [forgets] at hin
  | attach signed order => simp [forgets] at hin
  | tick ms => simp [forgets] at hin

theorem forgets_calls {es : List Event} {e : Event} {k : CallId} {key : Hash}
    (hin : key ∈ ((idle config signer).after es).forgets e)
    (hk : ((idle config signer).after es).hasReserved k = true) :
    Table.get? ((idle config signer).after (es ++ [e])).calls k =
      Table.get? ((idle config signer).after es).calls k := by
  obtain ⟨-, hcalls | ⟨id, ha, hfree⟩⟩ := forgets_spec hin
  · rw [after_concat, hcalls]
  · refine run_others ha ?_
    rintro rfl
    simp [hk] at hfree

/-- What a call heard until it had an answer can be said again. -/
theorem Detected.again {id : CallId} {log : List Event} {op : Operation}
    {request : ComputeRequest} {block : BlockContext} (h : Detected id log op request block) :
    ∃ outcome, detect op outcome = .ok (some request) ∧ outcome.block = block := by
  cases h with
  | given found at_block => exact ⟨_, found, at_block⟩
  | simulated found at_block => exact ⟨_, found, at_block⟩

theorem Answered.again {id : CallId} {log : List Event} {request : ComputeRequest}
    {block : BlockContext} {answer : Answer} {l : Lifecycle}
    (h : Answered signer id log request block answer l) :
    ∃ row registration reply, RegistryRow.check row request.account block = .ok registration ∧
      ∀ r : Relay, r.writer.signer = signer → ∀ c : Candidate, c.request = request →
        Usable r c registration reply := by
  cases h with
  | @given registration response payload registered came accepted =>
    obtain ⟨-, hrow⟩ := registered
    refine ⟨_, registration, .ok response, hrow, ?_⟩
    rintro r - c rfl
    exact ⟨payload, accepted⟩
  | @standIn registration e response payload registered failed signed accepted =>
    obtain ⟨-, hrow⟩ := registered
    refine ⟨_, registration, .error e, hrow, ?_⟩
    rintro r rfl c rfl
    exact ⟨response, standInResponse_eq_ok.mpr ⟨signed, payload, accepted⟩⟩

theorem Stage.Backed.reserved {id : CallId} {log : List Event} {stage : Stage} {key : Hash}
    (hb : stage.Backed config signer id log) (hkey : stage.hold.reserved? = some key) :
    stage.hasReserved = true ∧ ∃ op request block answer l, Detected id log op request block ∧
      Answered signer id log request block answer l ∧ request.requestId = key := by
  cases stage with
  | drafting c answer stage =>
    obtain ⟨hd, ha, -⟩ := hb
    exact ⟨rfl, c.op, c.request, c.block, answer, _, hd, ha, Option.some.inj hkey⟩
  | resimulating c answer prepared =>
    obtain ⟨hd, ⟨l, ha, -⟩, -⟩ := hb
    exact ⟨rfl, c.op, c.request, c.block, answer, l, hd, ha, Option.some.inj hkey⟩
  | _ => cases hkey

variable {r : Relay} {id : CallId} {c : Candidate}

theorem submitted_pending (r : Relay) :
    (r.step (.submitted (Table.keys r.pending))).1.pending = [] := by
  refine List.filter_eq_nil_iff.mpr ?_
  intro entry hentry
  have hin : entry.1 ∈ Table.keys r.pending := List.mem_map.mpr ⟨entry, hentry, rfl⟩
  simp [hin]

theorem Stage.place_of_hasReserved {stage : Stage} (h : stage.hasReserved = true) :
    stage.hold.place ≠ .outside := by
  cases stage with
  | drafting c answer stage => cases stage <;> exact nofun
  | resimulating => exact nofun
  | _ => cases h

/-- A call outside the lane that gets a usable reply reserves its request beside a call that has
reserved one before. -/
theorem reply_reserves {es : List Event} {k k' : CallId} {stage : Stage} {c : Candidate}
    {registration : Registration} {reply : Except ServiceError ComputeResponse}
    (hs : Table.get? ((idle config signer).after es).calls k = some stage)
    (hreserved : stage.hasReserved = true)
    (hs' : Table.get? ((idle config signer).after es).calls k' = some (.asking c registration))
    (hout : c.requestId ∉ ((idle config signer).after es).writer.reserved)
    (hu : Usable ((idle config signer).after es) c registration reply) :
    (((idle config signer).after (es ++ [.reply k' (.response reply)])).holdOf k').reserved? =
      some c.requestId := by
  have hline := run_inLine config signer es
  have hin : k ∈ ((idle config signer).after es).writer.lane.line := by
    refine (hline.mem_iff k).mpr ?_
    simpa [holdOf, hs] using Stage.place_of_hasReserved hreserved
  have hnot : k' ∉ ((idle config signer).after es).writer.lane.line := by
    intro hin'
    exact (hline.mem_iff k').mp hin' (by simp [holdOf, hs', Stage.hold])
  obtain ⟨first, hfirst⟩ : ∃ first,
      ((idle config signer).after es).writer.lane.line.head? = some first :=
    ⟨_, List.head?_eq_some_head (List.ne_nil_of_mem hin)⟩
  have hne : first ≠ k' := by
    rintro rfl
    exact hnot (List.mem_of_head? hfirst)
  obtain ⟨-, -, hl⟩ := (run_backed config signer es).2.2 k' _ hs'
  rw [after_concat]
  exact usable_reply_queued hs' hl hout hfirst hne hu

/-- A second call reserves a free request beside a call that has reserved it before: the pending
pairs are submitted, and the request is made again. -/
theorem exists_repeat {es : List Event} {k : CallId} {key : Hash}
    (hk : (((idle config signer).after es).holdOf k).reserved? = some key)
    (hfree : ((idle config signer).after es).shared.Free key) :
    ∃ more k', k' ≠ k ∧
      (((idle config signer).after (es ++ more)).holdOf k).reserved? = some key ∧
      (((idle config signer).after (es ++ more)).holdOf k').reserved? = some key := by
  obtain ⟨stage, hs, hres⟩ := holdOf_reserved?_eq_some.mp hk
  obtain ⟨hreserved, op, request, block, answer, l, hd, ha, hkey⟩ :=
    ((run_backed config signer es).2.2 k stage hs).reserved hres
  obtain ⟨outcome, hfound, hblock⟩ := hd.again
  obtain ⟨row, registration, reply, hrow, husable⟩ := ha.again
  subst hblock hkey
  -- the pending pairs are submitted
  let e₁ : Event := .submitted (Table.keys ((idle config signer).after es).pending)
  have h₁ := after_concat (idle config signer) es e₁
  have hpending₁ : ((idle config signer).after (es ++ [e₁])).pending = [] := by
    rw [h₁]
    exact submitted_pending _
  have hfree₁ : ((idle config signer).after (es ++ [e₁])).shared.Free request.requestId := by
    rw [h₁]
    exact hfree.forget _
  have hs₁ : Table.get? ((idle config signer).after (es ++ [e₁])).calls k = some stage := by
    rw [h₁]
    exact hs
  -- another call starts with the same operation and hears the same registration
  let r₁ := (idle config signer).after (es ++ [e₁])
  obtain ⟨k', hk'⟩ := r₁.exists_unused
  have hne : k' ≠ k := by
    rintro rfl
    exact nomatch hk'.symm.trans hs₁
  let asks : List Event := [.start k' (.processSimulated op outcome), .reply k' (.row (.ok row))]
  have h₂ : (idle config signer).after (es ++ [e₁] ++ asks) = _ :=
    (after_append _ _ asks).trans
      (after_row hk' (by simp [hpending₁]) hfree₁.active hfound hrow)
  have hs₂ : Table.get? ((idle config signer).after (es ++ [e₁] ++ asks)).calls k = some stage := by
    rw [h₂]
    simpa [Table.get?_insert, hne] using hs₁
  have hs₂' : Table.get? ((idle config signer).after (es ++ [e₁] ++ asks)).calls k' =
      some (.asking ⟨op, request, outcome.block, r₁.now + r₁.config.requestTimeoutMs.toNat,
        ⟨request.requestId, [.resolving, .detected], .requesting⟩⟩ registration) := by
    rw [h₂]
    simp [Table.get?_insert, r₁]
  have hout : request.requestId ∉
      ((idle config signer).after (es ++ [e₁] ++ asks)).writer.reserved := by
    rw [h₂]
    exact hfree₁.reserved
  -- and the service replies the same
  let e₂ : Event := .reply k' (.response reply)
  have hs₃ := (run_others (e := e₂) (addressee_reply hs₂' rfl) hne.symm).trans hs₂
  have hsigner := (run_backed config signer (es ++ [e₁] ++ asks)).2.1
  have hs₃' := reply_reserves hs₂ hreserved hs₂' hout (husable _ hsigner _ rfl)
  have hruns : es ++ e₁ :: asks ++ [e₂] = es ++ [e₁] ++ asks ++ [e₂] := by simp
  refine ⟨e₁ :: asks ++ [e₂], k', hne, ?_, ?_⟩
  · rw [← List.append_assoc, hruns]
    exact holdOf_reserved?_eq_some.mpr ⟨stage, hs₃, hres⟩
  · rw [← List.append_assoc, hruns]
    exact hs₃'

/-- Once a request that a call has reserved is forgotten, a second call can reserve it as well. -/
theorem exists_duplicate {es : List Event} {e : Event} {key : Hash} {k : CallId}
    (hin : key ∈ ((idle config signer).after es).forgets e)
    (hk : (((idle config signer).after es).holdOf k).reserved? = some key) :
    ∃ more k', k' ≠ k ∧
      (((idle config signer).after (es ++ e :: more)).holdOf k).reserved? = some key ∧
      (((idle config signer).after (es ++ e :: more)).holdOf k').reserved? = some key := by
  obtain ⟨stage, hs, hres⟩ := holdOf_reserved?_eq_some.mp hk
  have hreserved := (((run_backed config signer es).2.2 k stage hs).reserved hres).1
  have hs' : Table.get? ((idle config signer).after (es ++ [e])).calls k = some stage := by
    rw [← hs]
    exact forgets_calls hin (by simp [hasReserved, hs, hreserved])
  have hfree : ((idle config signer).after (es ++ [e])).shared.Free key := by
    rw [after_concat]
    exact (forgets_spec hin).1
  obtain ⟨more, k', hne, hfirst, hsecond⟩ :=
    exists_repeat (holdOf_reserved?_eq_some.mpr ⟨stage, hs', hres⟩) hfree
  rw [List.append_assoc] at hfirst hsecond
  exact ⟨more, k', hne, hfirst, hsecond⟩

/-- No request is written twice as long as no id is forgotten that a call in flight has reserved;
and once one is forgotten, two calls can come to write its request. -/
theorem requests_writtenOnce (config : Config) (signer : Signer) :
    (∀ es, Throughout SparesReserved (idle config signer) es →
      WrittenOnce ((idle config signer).after es)) ∧
    ∀ es e, ¬ SparesReserved ((idle config signer).after es) e →
      ∃ more, ¬ WrittenOnce ((idle config signer).after (es ++ e :: more)) := by
  refine ⟨fun es spares => run_writtenOnce spares, ?_⟩
  intro es e hforgets
  simp only [SparesReserved, not_forall, not_not] at hforgets
  obtain ⟨key, hin, k, hk⟩ := hforgets
  obtain ⟨more, k', hne, hfirst, hsecond⟩ := exists_duplicate hin hk
  refine ⟨more, fun honce => hne ?_⟩
  obtain ⟨c, hc, hr, hid⟩ := holdOf_reserved?_iff.mp hfirst
  obtain ⟨c', hc', hr', hid'⟩ := holdOf_reserved?_iff.mp hsecond
  exact honce.one_call k' k c' c hc' hc hr' hr (hid'.trans hid.symm)

/-- A request that is submitted while its only call waits for a nonce can be written twice. -/
theorem sample_writtenOnce :
    WrittenOnce ((idle Sample.config Sample.signer).after (Sample.first.served "a" 0)) ∧
      ∃ more, ¬ WrittenOnce ((idle Sample.config Sample.signer).after
        (Sample.first.asked "a" ++ .submitted [Sample.firstKey] :: more)) := by
  refine ⟨(requests_writtenOnce _ _).1 _ ?_, (requests_writtenOnce _ _).2 _ _ ?_⟩
  · simp [Throughout, SparesReserved, forgets, Answerable.served, Answerable.asked, finishing]
  · intro spares
    refine spares Sample.firstKey (List.mem_singleton_self _) "a" ?_
    rw [Answerable.after_asked (Answerable.welcome_idle _ _ _) rfl]
    simp [holdOf, Table.get?_insert, Stage.hold, Candidate.requestId, Answerable.candidate]
    rfl

end ComputeRelay
