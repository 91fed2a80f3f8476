import ComputeRelay.Proofs.Reservations
import ComputeRelay.Proofs.Serving

/-! No request is written twice as long as nobody forgets an id that a call has reserved. Once such
an id is forgotten, a second call for the same request can reserve it beside the first. -/

namespace ComputeRelay

open Relay

variable {r : Relay} {id : CallId} {c : Candidate}

/-- The service's reply leads to a response that can be written: one that its registration's
signer stands for, or the stand-in for a missing one. -/
def Usable (r : Relay) (c : Candidate) (registration : Registration) :
    Except ServiceError ComputeResponse → Prop
  | .ok response => ∃ payload, response.verify c.request registration.signer = .ok payload
  | .error e => ∃ response, r.standInResponse c.request e.code = .ok response

/-- A usable reply takes a call to the drafting of its write. -/
theorem afterResponse_eq {registration : Registration}
    {reply : Except ServiceError ComputeResponse}
    (hl : c.lifecycle = ⟨c.requestId, [.resolving, .detected], .requesting⟩)
    (hu : Usable r c registration reply) :
    ∃ (r' : Relay) (c' : Candidate) (answer : Answer),
      r.afterResponse id c registration reply = r'.startDrafting id c' answer ∧
        r'.writer = r.writer ∧ c'.requestId = c.requestId := by
  cases reply with
  | ok response =>
    obtain ⟨payload, hver⟩ := hu
    simp only [afterResponse]
    rw [enter_eq hl rfl]
    simp only [hver]
    rw [enter_eq rfl rfl]
    exact ⟨_, _, _, rfl, rfl, rfl⟩
  | error e =>
    obtain ⟨response, hresp⟩ := hu
    have hresp' : (r.record c.requestId (.failed e.reason)).standInResponse c.request e.code =
        .ok response := hresp
    simp only [afterResponse]
    rw [enter_eq hl (by cases e <;> rfl)]
    simp only [hresp']
    exact ⟨_, _, _, rfl, rfl, rfl⟩

theorem startDrafting_reserved {answer : Answer} (hin : c.requestId ∈ r.writer.reserved) :
    (r.startDrafting id c answer).2 =
      .finished (.rejected (.write (.duplicateRequest c.requestId))) := by
  have hres : r.writer.isReserved (c.draft answer).requestId = true := by
    simpa [CacheWriter.isReserved, Candidate.draft] using hin
  simp only [startDrafting, CacheWriter.start, hres, if_true, afterDrafting]
  rfl

/-- Behind others in the lane, a call reserves its request and waits for its turn. -/
theorem startDrafting_queued {answer : Answer} (hout : c.requestId ∉ r.writer.reserved)
    {first : CallId} (hfirst : r.writer.lane.line.head? = some first) (hne : first ≠ id) :
    (r.startDrafting id c answer).2 = .waiting (.drafting c answer .queued) := by
  have hres : r.writer.isReserved (c.draft answer).requestId = false := by
    simpa [CacheWriter.isReserved, Candidate.draft] using hout
  have hjoin : (r.writer.lane.join id).standing id = .waiting := by
    have hnot : ¬ (r.writer.lane.join id).isHeldBy id = true := by
      rw [Lane.isHeldBy_iff]
      simp [Lane.join, List.head?_append, hfirst, hne]
    unfold Lane.standing
    rw [if_neg hnot]
  simp only [startDrafting, CacheWriter.start, hres, CacheWriter.takeTurn, hjoin,
    Bool.false_eq_true, if_false, afterDrafting]

theorem duplicate_rejected {registration : Registration}
    (hl : c.lifecycle = ⟨c.requestId, [.resolving, .detected], .requesting⟩)
    (hin : c.requestId ∈ r.writer.reserved) {reply : Except ServiceError ComputeResponse}
    (hu : Usable r c registration reply) :
    (settle id (r.afterResponse id c registration reply)).2 =
      some (.rejected (.write (.duplicateRequest c.requestId))) := by
  obtain ⟨r', c', answer, heq, hw, hid⟩ := afterResponse_eq hl hu
  have hin' : c'.requestId ∈ r'.writer.reserved := by rw [hid, hw]; exact hin
  have hrej : (r'.startDrafting id c' answer).2 =
      .finished (.rejected (.write (.duplicateRequest c'.requestId))) := startDrafting_reserved hin'
  rw [heq]
  generalize r'.startDrafting id c' answer = step at hrej
  obtain ⟨r'', progress⟩ := step
  simp only at hrej
  subst hrej
  simp [settle, hid]

/-- A request of this id is being written or in a pending pair. -/
def Relay.Taken (r : Relay) (key : Hash) : Prop :=
  key ∈ Table.keys r.pending ∨
    ∃ k c, r.candidate? k = some c ∧ r.hasReserved k = true ∧ c.requestId = key

/-- At this relay no request is written twice: one call at a time has reserved it, its pair takes
the place of no other, and a call that comes to write it once more is told so. -/
structure WrittenOnce (r : Relay) : Prop where
  one_call : ∀ k k' c c', r.candidate? k = some c → r.candidate? k' = some c' →
    r.hasReserved k = true → r.hasReserved k' = true → c.requestId = c'.requestId → k = k'
  none_lost : ∀ e pair fee l, (r.step e).2 = some (.paired pair fee l) →
    pair.requestId ∉ Table.keys r.pending
  rejected : ∀ k c registration reply, Table.get? r.calls k = some (.asking c registration) →
    r.Taken c.requestId → Usable r c registration reply →
      (r.step (.reply k (.response reply))).2 =
        some (.rejected (.write (.duplicateRequest c.requestId)))
  rejected_late : ∀ k c registration, Table.get? r.calls k = some (.asking c registration) →
    r.Taken c.requestId → Usable r c registration (.error .timeout) → c.deadline ≤ r.now →
      (r.step (.timeout k)).2 = some (.rejected (.write (.duplicateRequest c.requestId)))

/-- As long as no reserved id is forgotten, no request is written twice. -/
theorem run_writtenOnce {config : Config} {signer : Signer} {es : List Event}
    (spares : Throughout SparesReserved (idle config signer) es) :
    WrittenOnce ((idle config signer).after es) := by
  have howned := run_owned spares
  obtain ⟨-, -, hbacked⟩ := run_backed config signer es
  have htaken : ∀ key, ((idle config signer).after es).Taken key →
      key ∈ ((idle config signer).after es).writer.reserved := by
    intro key ht
    refine (howned.mem_iff key).mpr ?_
    rcases ht with hpending | ⟨k, c, hc, hr, hid⟩
    · exact .inr hpending
    · exact .inl ⟨k, holdOf_reserved?_iff.mpr ⟨c, hc, hr, hid⟩⟩
  refine ⟨?_, ?_, ?_, ?_⟩
  · intro k k' c c' hc hc' hr hr' heq
    exact howned.unique c.requestId k k' (holdOf_reserved?_iff.mpr ⟨c, hc, hr, rfl⟩)
      (holdOf_reserved?_iff.mpr ⟨c', hc', hr', heq.symm⟩)
  · intro e pair fee l hresult
    obtain ⟨id, -, hs⟩ := run_stepped config signer es e
    obtain ⟨-, hheld, -⟩ := hs.result _ hresult
    exact howned.apart _ id hheld
  · intro k c registration reply hs ht hu
    obtain ⟨-, -, hl⟩ := hbacked k _ hs
    rw [step_reply_fst hs]
    exact duplicate_rejected hl (htaken _ ht) hu
  · intro k c registration hs ht hu hlate
    obtain ⟨-, -, hl⟩ := hbacked k _ hs
    have hdue : (Stage.asking c registration).deadline?.any
        (· ≤ ((idle config signer).after es).now) = true := by
      simpa [Stage.deadline?] using hlate
    simp only [step, hs, hdue, if_true]
    exact duplicate_rejected hl (htaken _ ht) hu

/-- Reserving the request of a call that got a usable reply, behind others in the lane. -/
theorem usable_reply_queued {registration : Registration}
    (hs : Table.get? r.calls id = some (.asking c registration))
    (hl : c.lifecycle = ⟨c.requestId, [.resolving, .detected], .requesting⟩)
    (hout : c.requestId ∉ r.writer.reserved) {first : CallId}
    (hfirst : r.writer.lane.line.head? = some first) (hne : first ≠ id)
    {reply : Except ServiceError ComputeResponse} (hu : Usable r c registration reply) :
    ((r.step (.reply id (.response reply))).1.holdOf id).reserved? = some c.requestId := by
  obtain ⟨r', c', answer, heq, hw, hid⟩ := afterResponse_eq hl hu
  have hout' : c'.requestId ∉ r'.writer.reserved := by rw [hid, hw]; exact hout
  rw [← hw] at hfirst
  have hq : (r'.startDrafting id c' answer).2 = .waiting (.drafting c' answer .queued) :=
    startDrafting_queued hout' hfirst hne
  rw [step_reply_fst hs, resumeReply, heq]
  generalize r'.startDrafting id c' answer = step at hq
  obtain ⟨r'', progress⟩ := step
  simp only at hq
  subst hq
  simp [settle, holdOf, Table.get?_insert, Stage.hold, hid]

end ComputeRelay
