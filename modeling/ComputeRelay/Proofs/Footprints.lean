import ComputeRelay.Proofs.Course
import ComputeRelay.Proofs.Forgetting

/-! What a step of a call on a request touches of the working sets, short of finishing a pair: the
row and the reservation of its own request, and, before it has a request, the pairs that have
expired. The lane's next nonce is never put up. -/

namespace ComputeRelay

open Relay

/-- The next nonce of the lane stays, or is lowered as pairs are dropped, or the ledger has told it
where it was unknown. -/
inductive NextKept (dropped : List Hash) (told : Option Word) : Option Word → Option Word → Prop
  | same (next : Option Word) : NextKept dropped told next next
  | lowered {next next' : Word} (some_dropped : dropped ≠ []) (lower : next'.toNat < next.toNat) :
      NextKept dropped told (some next) (some next')
  | learned {nonce : Word} (heard : told = some nonce) : NextKept dropped told none (some nonce)

theorem NextKept.eq {next next' : Option Word} (h : NextKept [] none next next') :
    next' = next := by
  cases h with
  | same => rfl
  | lowered some_dropped => exact absurd rfl some_dropped
  | learned heard => exact nomatch heard

theorem NextKept.of_untold {dropped : List Hash} {next next' : Option Word}
    (h : NextKept dropped none next next') (told : Option Word) :
    NextKept dropped told next next' := by
  cases h with
  | same => exact .same _
  | lowered some_dropped lower => exact .lowered some_dropped lower
  | learned heard => exact nomatch heard

/-- Nothing changes but the row and the reservation of `own`, and what belongs to dropped pairs. -/
structure TouchesOnly (own : Option Hash) (dropped : List Hash) (told : Option Word)
    (s s' : Shared) : Prop where
  rows : ∀ key, own ≠ some key → key ∉ dropped →
    Table.get? s'.active key = Table.get? s.active key
  reserved : ∀ key, own ≠ some key → key ∉ dropped → (key ∈ s'.reserved ↔ key ∈ s.reserved)
  pairs : ∀ key, key ∉ dropped → Table.get? s'.pending key = Table.get? s.pending key
  next : NextKept dropped told s.lane.next s'.lane.next

/-- Only the row and the reservation of the request change, and who stands in line. -/
abbrev Confined (key : Hash) : Shared → Shared → Prop := TouchesOnly (some key) [] none

namespace Progress

def candidate? (p : Progress) : Option Candidate := p.stage?.bind Stage.candidate?

def isPaired : Progress → Bool
  | .finished (.paired _ _ _) => true
  | _ => false

end Progress

/-- The pair of the id goes when expired pairs are dropped: its nonce is not below that of a pair
that has expired. -/
def Relay.Outlived (r : Relay) (key : Hash) : Prop :=
  ∃ entry old, (key, entry) ∈ r.pending ∧ old ∈ r.pending ∧ r.expired r.now old.2 = true ∧
    old.2.pair.write.nonce.toNat ≤ entry.pair.write.nonce.toNat

namespace TouchesOnly

variable {own : Option Hash} {dropped : List Hash} {told : Option Word} {s s' s'' : Shared}

theorem refl (own : Option Hash) (dropped : List Hash) (told : Option Word) (s : Shared) :
    TouchesOnly own dropped told s s :=
  ⟨fun _ _ _ => rfl, fun _ _ _ => Iff.rfl, fun _ _ => rfl, .same _⟩

theorem trans (h : TouchesOnly own dropped told s s') (h' : TouchesOnly own [] none s' s'') :
    TouchesOnly own dropped told s s'' := by
  refine ⟨?_, ?_, ?_, ?_⟩
  · intro key hown hkept
    rw [h'.rows key hown List.not_mem_nil, h.rows key hown hkept]
  · intro key hown hkept
    rw [h'.reserved key hown List.not_mem_nil, h.reserved key hown hkept]
  · intro key hkept
    rw [h'.pairs key List.not_mem_nil, h.pairs key hkept]
  · rw [h'.next.eq]
    exact h.next

theorem confined_trans (h : TouchesOnly own [] none s s')
    (h' : TouchesOnly own dropped told s' s'') : TouchesOnly own dropped told s s'' := by
  refine ⟨?_, ?_, ?_, ?_⟩
  · intro key hown hkept
    rw [h'.rows key hown hkept, h.rows key hown List.not_mem_nil]
  · intro key hown hkept
    rw [h'.reserved key hown hkept, h.reserved key hown List.not_mem_nil]
  · intro key hkept
    rw [h'.pairs key hkept, h.pairs key List.not_mem_nil]
  · rw [← h.next.eq]
    exact h'.next

theorem of_none (h : TouchesOnly none dropped told s s') (own : Option Hash) :
    TouchesOnly own dropped told s s' :=
  ⟨fun key _ => h.rows key nofun, fun key _ => h.reserved key nofun, h.pairs, h.next⟩

theorem of_untold (h : TouchesOnly own dropped none s s') (told : Option Word) :
    TouchesOnly own dropped told s s' :=
  ⟨h.rows, h.reserved, h.pairs, h.next.of_untold told⟩

theorem line (own : Option Hash) (s : Shared) {lane : Lane} (hnext : lane.next = s.lane.next) :
    TouchesOnly own [] none s { s with lane } := by
  refine ⟨fun _ _ _ => rfl, fun _ _ _ => Iff.rfl, fun _ _ => rfl, ?_⟩
  show NextKept [] none s.lane.next lane.next
  rw [hnext]
  exact .same _

theorem record (s : Shared) (key : Hash) (state : RequestState) :
    Confined key s { s with active := Table.insert s.active key state } := by
  refine ⟨?_, fun _ _ _ => Iff.rfl, fun _ _ => rfl, .same _⟩
  intro key' hown _
  have hne : key ≠ key' := fun heq => hown (congrArg some heq)
  simp [Table.get?_insert, hne]

theorem erase (s : Shared) (key : Hash) :
    Confined key s { s with active := Table.erase s.active key } := by
  refine ⟨?_, fun _ _ _ => Iff.rfl, fun _ _ => rfl, .same _⟩
  intro key' hown _
  have hne : key ≠ key' := fun heq => hown (congrArg some heq)
  simp [Table.get?_erase, hne]

theorem reserve (s : Shared) (key : Hash) (id : CallId) :
    Confined key s { s with reserved := s.reserved ++ [key], lane := s.lane.join id } := by
  refine ⟨fun _ _ _ => rfl, ?_, fun _ _ => rfl, .same _⟩
  intro key' hown _
  have hne : key' ≠ key := fun heq => hown (congrArg some heq.symm)
  simp [hne]

theorem release (s : Shared) (key : Hash) (id : CallId) :
    Confined key s
      { s with
        reserved := s.reserved.filter fun k => !List.contains [key] k
        lane := s.lane.leave id } := by
  refine ⟨fun _ _ _ => rfl, ?_, fun _ _ => rfl, .same _⟩
  intro key' hown _
  have hne : key' ≠ key := fun heq => hown (congrArg some heq.symm)
  simp [hne]

theorem rewind (s : Shared) {cutoff : Nat} (hcutoff : s.above cutoff ≠ []) :
    TouchesOnly none (s.above cutoff) none s (s.rewind cutoff) := by
  refine ⟨?_, ?_, ?_, ?_⟩
  · intro key _ hkept
    rw [Shared.rewind, Shared.get?_active_forget, if_neg hkept]
  · intro key _ hkept
    rw [Shared.rewind, Shared.mem_reserved_forget]
    exact and_iff_left hkept
  · intro key hkept
    rw [Shared.rewind, Shared.get?_pending_forget, if_neg hkept]
  · simp only [Shared.rewind, Shared.forget, Lane.rewind]
    cases s.lane.next with
    | none => exact .same none
    | some next =>
      simp only [Option.map_some]
      split
      · rename_i hlower
        exact .lowered hcutoff hlower
      · exact .same _

end TouchesOnly

variable {r₀ r : Relay} {id : CallId} {c : Candidate} {answer : Answer} {key : Hash}
  {told : Option Word}

/-- A step on a request has touched only what is the request's own, unless a pair is finished, and
has taken its row away, if the request is rejected. -/
structure Works (r₀ : Relay) (key : Hash) (told : Option Word) (step : Relay × Progress) :
    Prop where
  touches : step.2.isPaired = false →
    TouchesOnly (some key) [] told r₀.shared step.1.shared
  closes : ∀ e, step.2 = rejected e → Table.get? step.1.active key = none

theorem waiting_works (ht : TouchesOnly (some key) [] told r₀.shared r.shared) (stage : Stage) :
    Works r₀ key told (r, .waiting stage) :=
  ⟨fun _ => ht, nofun⟩

theorem reject_works (ht : TouchesOnly (some c.requestId) [] told r₀.shared r.shared)
    (e : Rejection) : Works r₀ c.requestId told (r.reject c e) := by
  refine ⟨fun _ => ht.trans (.erase r.shared c.requestId), fun _ _ => ?_⟩
  simp [Relay.reject, Table.get?_erase]

theorem giveUp_works (ht : TouchesOnly (some c.requestId) [] told r₀.shared r.shared)
    (e : Rejection) : Works r₀ c.requestId told (r.giveUp id c e) :=
  reject_works (r := { r with writer := r.writer.abandon id c.requestId })
    (ht.trans (.release r.shared c.requestId id)) e

theorem enter_works {state : RequestState} {go : Relay → Candidate → Relay × Progress}
    (ht : TouchesOnly (some c.requestId) [] told r₀.shared r.shared)
    (hgo : ∀ l : Lifecycle,
      TouchesOnly (some c.requestId) [] told r₀.shared (r.record c.requestId l.state).shared →
      Works r₀ c.requestId told (go (r.record c.requestId l.state) { c with lifecycle := l })) :
    Works r₀ c.requestId told (r.enter c state go) := by
  unfold Relay.enter
  split
  · exact reject_works ht _
  · rename_i l _
    exact hgo l (ht.trans (.record r.shared c.requestId l.state))

theorem withNonce_touches (r : Relay) (id : CallId) (d : Draft) (nonce : Word) :
    Confined d.requestId r.shared
      { r with writer := (r.writer.withNonce id d nonce).1 : Relay }.shared := by
  unfold CacheWriter.withNonce
  split
  · exact .release r.shared d.requestId id
  · exact .refl _ _ _ _

theorem takeTurn_touches (r : Relay) (id : CallId) (d : Draft) :
    Confined d.requestId r.shared
      { r with writer := (r.writer.takeTurn id d).1 : Relay }.shared := by
  unfold CacheWriter.takeTurn
  split
  · exact .refl _ _ _ _
  · exact .refl _ _ _ _
  · exact withNonce_touches r id d _

theorem start_touches (r : Relay) (id : CallId) (d : Draft) :
    Confined d.requestId r.shared { r with writer := (r.writer.start id d).1 : Relay }.shared := by
  unfold CacheWriter.start
  split
  · exact .refl _ _ _ _
  · let r' : Relay :=
      { r with
        writer := { r.writer with
          reserved := r.writer.reserved ++ [d.requestId], lane := r.writer.lane.join id } }
    have hreserve : Confined d.requestId r.shared r'.shared := .reserve r.shared d.requestId id
    exact hreserve.trans (takeTurn_touches r' id d)

theorem simulated_touches (r : Relay) (id : CallId) (d : Draft) (write : Operation)
    (reply : Except LedgerError Simulation) : Confined d.requestId r.shared
      { r with writer := (r.writer.simulated id d write reply).1 : Relay }.shared := by
  unfold CacheWriter.simulated
  split
  · exact .release r.shared d.requestId id
  · split
    · exact .release r.shared d.requestId id
    · exact .refl _ _ _ _

theorem nonceRead_touches (hnext : r.writer.lane.next = none) (id : CallId) (d : Draft)
    {reply : Except LedgerError Word} (htold : ∀ nonce, reply = .ok nonce → told = some nonce) :
    TouchesOnly (some d.requestId) [] told r.shared
      { r with writer := (r.writer.nonceRead id d reply).1 : Relay }.shared := by
  unfold CacheWriter.nonceRead
  cases reply with
  | error e => exact (TouchesOnly.refl _ _ _ _).trans (.release r.shared d.requestId id)
  | ok nonce =>
    let r' : Relay := { r with writer := { r.writer with lane := r.writer.lane.learn nonce } }
    have hlearn : TouchesOnly (some d.requestId) [] told r.shared r'.shared := by
      refine ⟨fun _ _ _ => rfl, fun _ _ _ => Iff.rfl, fun _ _ => rfl, ?_⟩
      show NextKept [] told r.writer.lane.next (some nonce)
      rw [hnext]
      exact .learned (htold nonce rfl)
    exact hlearn.trans (withNonce_touches r' id d nonce)

theorem afterDrafting_works {step : CacheWriter × DraftResult}
    (ht : TouchesOnly (some c.requestId) [] told r₀.shared
      { r with writer := step.1 : Relay }.shared) :
    Works r₀ c.requestId told (r.afterDrafting id c answer step) := by
  obtain ⟨w, result⟩ := step
  unfold Relay.afterDrafting
  cases result with
  | waiting stage => exact waiting_works ht _
  | failed e => exact reject_works ht _
  | prepared p =>
    simp only
    split
    · exact waiting_works ht _
    · split
      · exact giveUp_works (r := { r with writer := w }) ht _
      · exact waiting_works (ht.trans (.record _ _ _)) _

theorem startDrafting_works (ht : TouchesOnly (some c.requestId) [] told r₀.shared r.shared)
    (id : CallId) : Works r₀ c.requestId told (r.startDrafting id c answer) :=
  afterDrafting_works (ht.trans (start_touches r id (c.draft answer)))

theorem afterResponse_works (r : Relay) (id : CallId) (c : Candidate) (registration : Registration)
    (reply : Except ServiceError ComputeResponse) :
    Works r c.requestId none (r.afterResponse id c registration reply) := by
  cases reply with
  | ok response =>
    simp only [Relay.afterResponse]
    refine enter_works (.refl _ _ _ _) fun l hl => ?_
    simp only
    split
    · exact reject_works (c := { c with lifecycle := l }) hl _
    · exact enter_works (c := { c with lifecycle := l }) hl fun l' hl' =>
        startDrafting_works (c := { c with lifecycle := l' }) hl' id
  | error e =>
    simp only [Relay.afterResponse]
    refine enter_works (.refl _ _ _ _) fun l hl => ?_
    simp only
    split
    · exact reject_works (c := { c with lifecycle := l }) hl _
    · exact startDrafting_works (c := { c with lifecycle := l, deadline := _ }) hl id

theorem afterResimulation_works (r : Relay) (id : CallId) (c : Candidate) (answer : Answer)
    (prepared : Prepared) (reply : Except LedgerError Simulation) :
    Works r c.requestId none (r.afterResimulation id c answer prepared reply) := by
  have hgive : ∀ e, Works r c.requestId none
      (r.giveUp id c e) :=
    giveUp_works (.refl _ _ _ _)
  have hpaired : ∀ r' pair fee l, Works r c.requestId none
      (r', .finished (.paired pair fee l)) := fun r' pair fee l => ⟨nofun, nofun⟩
  cases reply with
  | error e => exact hgive _
  | ok outcome =>
    simp only [Relay.afterResimulation]
    split
    · exact hgive _
    · split
      · exact hgive _
      · split
        · exact hpaired _ _ _ _
        · split
          · exact hgive _
          · exact hpaired _ _ _ _

/-- A step of a call that has no request yet has touched no more than the request that it takes on,
and expired pairs. -/
def Opens (r₀ : Relay) (step : Relay × Progress) : Prop :=
  ∃ dropped,
    TouchesOnly (step.2.candidate?.map (·.requestId)) dropped none r₀.shared step.1.shared ∧
      ∀ key ∈ dropped, r₀.Outlived key

theorem Opens.unmoved {step : Relay × Progress} (hstep : step.1.shared = r.shared) :
    Opens r step := by
  refine ⟨[], ?_, nofun⟩
  rw [hstep]
  exact .refl _ _ _ _

theorem takeOn_touches (r : Relay) (op : Operation) (request : ComputeRequest)
    (block : BlockContext) (deadline : Nat) :
    TouchesOnly ((r.takeOn op request block deadline).2.candidate?.map (·.requestId)) [] none
      r.shared (r.takeOn op request block deadline).1.shared := by
  unfold Relay.takeOn
  simp only
  split
  · exact .refl _ _ _ _
  · rw [enter_eq rfl rfl]
    have hopen : Confined request.requestId r.shared
        (r.record request.requestId .detected).shared :=
      .record r.shared request.requestId .detected
    exact hopen.trans (.record _ request.requestId .resolving)

theorem expired_mono {since now : Nat} (h : since ≤ now) {entry : PendingPair}
    (he : r.expired since entry = true) : r.expired now entry = true := by
  simp only [Relay.expired, decide_eq_true_eq] at he ⊢
  omega

theorem clear_touches (id : CallId) {since : Nat} (hsince : since ≤ r.now) :
    ∃ dropped, TouchesOnly none dropped none r.shared (r.clear id since).1.shared ∧
      ∀ key ∈ dropped, r.Outlived key := by
  have hleave : ∀ r' : Relay, TouchesOnly none [] none r'.shared
      (r'.modifyLane (·.leave id)).shared := fun r' => .line none r'.shared rfl
  unfold Relay.clear
  rcases giveBack_cases r fun _ entry => r.expired since entry with heq | ⟨old, hold, hold', heq⟩
  · rw [heq]
    exact ⟨[], hleave r, nofun⟩
  · rw [heq]
    have hin : old.1 ∈ r.shared.above old.2.pair.write.nonce.toNat :=
      List.mem_map.mpr ⟨old, List.mem_filter.mpr ⟨hold, by simp⟩, rfl⟩
    let r' : Relay :=
      (r.modifyLane (·.rewind (BitVec.ofNat 256 old.2.pair.write.nonce.toNat))).forget
        (r.shared.above old.2.pair.write.nonce.toNat)
    have hrewind : TouchesOnly none (r.shared.above old.2.pair.write.nonce.toNat) none r.shared
        r'.shared := .rewind r.shared (List.ne_nil_of_mem hin)
    refine ⟨_, hrewind.trans (hleave r'), ?_⟩
    intro key hkey
    obtain ⟨⟨_, entry⟩, hentry, rfl⟩ := List.mem_map.mp hkey
    rw [List.mem_filter, decide_eq_true_eq] at hentry
    exact ⟨entry, old, hentry.1, hold, expired_mono hsince hold', hentry.2⟩

theorem clear_takeOn_opens (id : CallId) {since : Nat} (hsince : since ≤ r.now) (op : Operation)
    (request : ComputeRequest) (block : BlockContext) (deadline : Nat) :
    Opens r ((r.clear id since).1.takeOn op request block deadline) := by
  obtain ⟨dropped, hclear, hdropped⟩ := clear_touches id hsince
  exact ⟨dropped, (hclear.of_none _).trans (takeOn_touches _ op request block deadline), hdropped⟩

theorem intercept_opens (r : Relay) (id : CallId) (op : Operation) (outcome : Simulation)
    (deadline : Nat) : Opens r (r.intercept id op outcome deadline) := by
  have hjoin : ∀ own, TouchesOnly own [] none r.shared (r.modifyLane (·.join id)).shared :=
    fun own => .line own r.shared rfl
  unfold Relay.intercept
  split
  · exact .unmoved rfl
  · exact .unmoved rfl
  · rename_i request _
    split
    · simp only
      split
      · obtain ⟨dropped, ht, hdropped⟩ := clear_takeOn_opens (r := r.modifyLane (·.join id)) id
          (Nat.le_refl r.now) op request outcome.block deadline
        exact ⟨dropped, (hjoin _).confined_trans ht, hdropped⟩
      · exact ⟨[], hjoin _, nofun⟩
    · exact ⟨[], takeOn_touches r op request outcome.block deadline, nofun⟩

theorem begin_opens {job : Job} (hjob : job.isRequest = true) (r : Relay) (id : CallId) :
    Opens r (r.begin id job) := by
  cases job with
  | process op => exact .unmoved rfl
  | processSimulated op outcome => exact intercept_opens r id op outcome _
  | expire => exact nomatch hjob
  | drop requestIds => exact nomatch hjob

theorem Works.of_untold {step : Relay × Progress} (h : Works r key none step)
    (told : Option Word) : Works r key told step :=
  ⟨fun hp => (h.touches hp).of_untold told, h.closes⟩

/-- The time from which a call counts the pairs as expired that it is in line to drop. -/
def Stage.since? : Stage → Option Nat
  | .clearing since _ _ _ _ => some since
  | _ => none

/-- What a step of a call touches, with the request that it finds the call at. -/
def Footprint (r : Relay) (told : Option Word) (step : Relay × Progress) :
    Option Candidate → Prop
  | none => Opens r step
  | some c => Works r c.requestId told step

theorem footprint_unmoved (r : Relay) (stage : Stage) (told : Option Word) :
    Footprint r told (r, .waiting stage) stage.candidate? := by
  cases hc : stage.candidate? with
  | none => exact .unmoved rfl
  | some c => exact waiting_works (.refl _ _ _ _) stage

theorem resumeTurn_footprint {stage : Stage} (hreq : stage.isRequest = true)
    (hsince : ∀ since, stage.since? = some since → since ≤ r.now) (told : Option Word) :
    Footprint r told (r.resumeTurn id stage) stage.candidate? := by
  cases stage with
  | clearing since op request block d =>
    exact clear_takeOn_opens id (hsince since rfl) op request block d
  | drafting c answer stage =>
    cases stage with
    | queued =>
      exact (afterDrafting_works (takeTurn_touches r id (c.draft answer))).of_untold told
    | reading => exact footprint_unmoved r _ told
    | simulating write => exact footprint_unmoved r _ told
  | expiring => exact nomatch hreq
  | dropping => exact nomatch hreq
  | resyncing => exact nomatch hreq
  | readingBlock => exact footprint_unmoved r _ told
  | simulating => exact footprint_unmoved r _ told
  | resolving => exact footprint_unmoved r _ told
  | asking => exact footprint_unmoved r _ told
  | resimulating => exact footprint_unmoved r _ told

theorem resumeReply_footprint {stage : Stage} {reply : Reply}
    (hs : Table.get? r.calls id = some stage) (hline : ReadsUnknown r.shared r.holdOf) :
    Footprint r (r.teaches? (.reply id reply)) (r.resumeReply id stage reply)
      stage.candidate? := by
  unfold Relay.resumeReply
  split
  · exact .unmoved rfl
  · exact .unmoved rfl
  · exact intercept_opens r id _ _ _
  · exact .unmoved rfl
  · rename_i c row
    split
    · exact reject_works (.refl _ _ _ _) _
    · exact enter_works (.refl _ _ _ _) fun l hl => waiting_works hl _
  · exact reject_works (.refl _ _ _ _) _
  · exact (afterResponse_works r id _ _ _).of_untold _
  · rename_i c answer reply
    refine afterDrafting_works (nonceRead_touches ?_ id (c.draft answer) ?_)
    · exact hline.unknown id (by simp [holdOf, hs, Stage.hold, Drafting.place])
    · rintro nonce rfl
      simp [teaches?, hs]
  · rename_i c answer write reply
    exact (afterDrafting_works
      (simulated_touches r id (c.draft answer) write reply)).of_untold _
  · exact (afterResimulation_works r id _ _ _ _).of_untold _
  · exact footprint_unmoved r _ _

theorem resumeTimeout_footprint (r : Relay) (id : CallId) (stage : Stage) (told : Option Word) :
    Footprint r told (r.resumeTimeout id stage) stage.candidate? := by
  cases stage with
  | readingBlock => exact .unmoved rfl
  | simulating => exact .unmoved rfl
  | resolving c => exact reject_works (.refl _ _ _ _) _
  | asking c registration =>
    exact (afterResponse_works r id c registration (.error .timeout)).of_untold told
  | drafting => exact giveUp_works (.refl _ _ _ _) _
  | resimulating => exact giveUp_works (.refl _ _ _ _) _
  | clearing => exact .unmoved rfl
  | expiring => exact .unmoved rfl
  | dropping => exact .unmoved rfl
  | resyncing => exact .unmoved rfl

theorem Resumed.footprint {stage : Stage} {e : Event} {step : Relay × Progress}
    (h : Resumed r id stage e step) (hreq : stage.isRequest = true)
    (hs : Table.get? r.calls id = some stage) (hline : ReadsUnknown r.shared r.holdOf)
    (hsince : ∀ since, stage.since? = some since → since ≤ r.now) :
    Footprint r (r.teaches? e) step stage.candidate? := by
  cases h with
  | turn => exact resumeTurn_footprint hreq hsince _
  | reply => exact resumeReply_footprint hs hline
  | timeout => exact resumeTimeout_footprint r id stage _

end ComputeRelay
