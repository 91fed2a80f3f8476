import ComputeRelay.Proofs.Evidence

/-! What a call holds of the working sets that all calls share, and the moves by which a call takes
and gives back its holdings. Every step of the relay is a chain of such moves of one call, so an
invariant of the working sets and the holdings is proved move by move. -/

namespace ComputeRelay

open Relay

/-- Where a call stands with respect to the lane. -/
inductive Place
  | outside
  | waiting
  | reading
  | granted (nonce : Word)
deriving DecidableEq, Repr

/-- What a call holds: the row of its request with the state that stands there, the reservation of
its request, and a place in the lane. -/
structure Hold where
  row? : Option (Hash × RequestState) := none
  reserved? : Option Hash := none
  place : Place := .outside
deriving DecidableEq, Repr

def Candidate.row? (c : Candidate) : Option (Hash × RequestState) :=
  some (c.requestId, c.lifecycle.state)

def Drafting.place : Drafting → Place
  | .queued => .waiting
  | .reading => .reading
  | .simulating write => .granted write.nonce

def Stage.hold : Stage → Hold
  | .readingBlock _ _ => {}
  | .simulating _ _ _ => {}
  | .clearing _ _ _ _ _ => { place := .waiting }
  | .resolving c => { row? := c.row? }
  | .asking c _ => { row? := c.row? }
  | .drafting c _ stage => ⟨c.row?, some c.requestId, stage.place⟩
  | .resimulating c _ prepared => ⟨c.row?, some c.requestId, .granted prepared.write.nonce⟩
  | .expiring _ => { place := .waiting }
  | .dropping _ => { place := .waiting }
  | .resyncing _ => { place := .waiting }

def Progress.hold : Progress → Hold
  | .waiting stage => stage.hold
  | .finished _ => {}

/-- The working sets. -/
structure Shared where
  lane : Lane := {}
  reserved : List Hash := []
  active : Table Hash RequestState := []
  pending : Table Hash PendingPair := []

namespace Shared

def forget (s : Shared) (requestIds : List Hash) : Shared :=
  { s with
    reserved := s.reserved.filter fun id => !requestIds.contains id
    active := s.active.filter fun e => !requestIds.contains e.1
    pending := s.pending.filter fun e => !requestIds.contains e.1 }

theorem mem_reserved_forget {s : Shared} {requestIds : List Hash} {key : Hash} :
    key ∈ (s.forget requestIds).reserved ↔ key ∈ s.reserved ∧ key ∉ requestIds := by
  simp [forget]

theorem mem_keys_forget {s : Shared} {requestIds : List Hash} {key : Hash} :
    key ∈ Table.keys (s.forget requestIds).pending ↔
      key ∈ Table.keys s.pending ∧ key ∉ requestIds := by
  rw [forget, Table.mem_keys_filter (p := fun key => !requestIds.contains key)]
  simp

theorem get?_active_forget (s : Shared) (requestIds : List Hash) (key : Hash) :
    Table.get? (s.forget requestIds).active key =
      if key ∈ requestIds then none else Table.get? s.active key := by
  rw [forget, Table.get?_filter_keys s.active fun key => !requestIds.contains key]
  by_cases hin : key ∈ requestIds <;> simp [hin]

theorem get?_pending_forget (s : Shared) (requestIds : List Hash) (key : Hash) :
    Table.get? (s.forget requestIds).pending key =
      if key ∈ requestIds then none else Table.get? s.pending key := by
  rw [forget, Table.get?_filter_keys s.pending fun key => !requestIds.contains key]
  by_cases hin : key ∈ requestIds <;> simp [hin]

/-- The requests whose pending pairs carry the nonce `cutoff` or a higher one. -/
def above (s : Shared) (cutoff : Nat) : List Hash :=
  (s.pending.filter fun e => decide (cutoff ≤ e.2.pair.write.nonce.toNat)).map (·.1)

def rewind (s : Shared) (cutoff : Nat) : Shared :=
  { s with lane := s.lane.rewind (BitVec.ofNat 256 cutoff) }.forget (s.above cutoff)

theorem above_subset (s : Shared) (cutoff : Nat) : s.above cutoff ⊆ Table.keys s.pending :=
  (List.filter_sublist.map _).subset

end Shared

/-- The reason of the failure that a response in place of a missing one stands for. -/
def ErrorCode.failure : ErrorCode → FailureReason
  | .timeout => .timeout
  | .unreachable => .unreachable
  | .malformed => .malformed
  | _ => .internal

/-- The last state of the request of a finished pair. -/
def Pair.endState (pair : Pair) : RequestState :=
  match pair.fallback with
  | none => .completed
  | some code => .failed code.failure

@[simp] theorem ServiceError.code_failure (e : ServiceError) : e.code.failure = e.reason := by
  cases e <;> rfl

theorem Answered.endState {signer : Signer} {id : CallId} {log : List Event}
    {request : ComputeRequest} {block : BlockContext} {answer : Answer} {l : Lifecycle}
    {pair : Pair} (h : Answered signer id log request block answer l)
    (hf : answer.fallback.isSome = true) (hpair : pair.fallback = answer.fallback) :
    l.state = pair.endState := by
  cases h with
  | given => simp at hf
  | standIn => simp [Pair.endState, hpair]

/-- The request that a call works on, from its check for duplicates on. -/
def Stage.candidate? : Stage → Option Candidate
  | .resolving c => some c
  | .asking c _ => some c
  | .drafting c _ _ => some c
  | .resimulating c _ _ => some c
  | _ => none

def Stage.hasReserved : Stage → Bool
  | .drafting _ _ _ => true
  | .resimulating _ _ _ => true
  | _ => false

theorem Stage.hold_row? (stage : Stage) : stage.hold.row? = stage.candidate?.bind (·.row?) := by
  cases stage <;> rfl

theorem Stage.hold_reserved? (stage : Stage) :
    stage.hold.reserved? =
      if stage.hasReserved then stage.candidate?.map (·.requestId) else none := by
  cases stage <;> rfl

namespace Relay

def shared (r : Relay) : Shared := ⟨r.writer.lane, r.writer.reserved, r.active, r.pending⟩

/-- Pairs are given back from the lowest nonce of a selected pair on. -/
theorem giveBack_spec (r : Relay) (selected : Hash → PendingPair → Bool) :
    (∀ e ∈ r.pending, selected e.1 e.2 = false) ∧ r.giveBack selected = (r, []) ∨
      ∃ old ∈ r.pending, selected old.1 old.2 = true ∧
        (∀ e ∈ r.pending, selected e.1 e.2 = true →
          old.2.pair.write.nonce.toNat ≤ e.2.pair.write.nonce.toNat) ∧
        r.giveBack selected =
          ((r.modifyLane (·.rewind (BitVec.ofNat 256 old.2.pair.write.nonce.toNat))).forget
            (r.shared.above old.2.pair.write.nonce.toNat),
          r.shared.above old.2.pair.write.nonce.toNat) := by
  unfold Relay.giveBack
  cases hc : (r.pending.filterMap fun e =>
      if selected e.1 e.2 then some e.2.pair.write.nonce.toNat else none).min? with
  | none =>
    refine .inl ⟨?_, rfl⟩
    intro e he
    have hnil := List.min?_eq_none_iff.mp hc
    by_contra hsel
    simpa [hsel] using List.filterMap_eq_nil_iff.mp hnil e he
  | some cutoff =>
    obtain ⟨hmem, hleast⟩ := List.min?_eq_some_iff.mp hc
    simp only [List.mem_filterMap, Option.ite_none_right_eq_some, Option.some.injEq] at hmem
    obtain ⟨old, hold, hselected, rfl⟩ := hmem
    refine .inr ⟨old, hold, hselected, ?_, rfl⟩
    intro e he hsel
    refine hleast _ (List.mem_filterMap.mpr ⟨e, he, ?_⟩)
    simp [hsel]

theorem giveBack_cases (r : Relay) (selected : Hash → PendingPair → Bool) :
    r.giveBack selected = (r, []) ∨
      ∃ old ∈ r.pending, selected old.1 old.2 = true ∧ r.giveBack selected =
        ((r.modifyLane (·.rewind (BitVec.ofNat 256 old.2.pair.write.nonce.toNat))).forget
          (r.shared.above old.2.pair.write.nonce.toNat),
        r.shared.above old.2.pair.write.nonce.toNat) := by
  rcases giveBack_spec r selected with ⟨-, heq⟩ | ⟨old, hold, hselected, -, heq⟩
  · exact .inl heq
  · exact .inr ⟨old, hold, hselected, heq⟩

def holdOf (r : Relay) (id : CallId) : Hold := ((Table.get? r.calls id).map Stage.hold).getD {}

theorem holdOf_reserved?_eq_some {r : Relay} {k : CallId} {key : Hash} :
    (r.holdOf k).reserved? = some key ↔
      ∃ stage, Table.get? r.calls k = some stage ∧ stage.hold.reserved? = some key := by
  unfold holdOf
  cases Table.get? r.calls k <;> simp

theorem holdOf_row?_eq_some {r : Relay} {k : CallId} {row : Hash × RequestState} :
    (r.holdOf k).row? = some row ↔
      ∃ stage, Table.get? r.calls k = some stage ∧ stage.hold.row? = some row := by
  unfold holdOf
  cases Table.get? r.calls k <;> simp

def candidate? (r : Relay) (k : CallId) : Option Candidate :=
  (Table.get? r.calls k).bind Stage.candidate?

def hasReserved (r : Relay) (k : CallId) : Bool := (Table.get? r.calls k).any Stage.hasReserved

theorem holdOf_row?_iff {r : Relay} {k : CallId} {key : Hash} {state : RequestState} :
    (r.holdOf k).row? = some (key, state) ↔
      ∃ c, r.candidate? k = some c ∧ c.requestId = key ∧ c.lifecycle.state = state := by
  unfold holdOf candidate?
  cases Table.get? r.calls k with
  | none => simp
  | some stage => cases hc : stage.candidate? <;> simp [Stage.hold_row?, hc, Candidate.row?]

theorem holdOf_reserved?_iff {r : Relay} {k : CallId} {key : Hash} :
    (r.holdOf k).reserved? = some key ↔
      ∃ c, r.candidate? k = some c ∧ r.hasReserved k = true ∧ c.requestId = key := by
  unfold holdOf candidate? hasReserved
  cases Table.get? r.calls k with
  | none => simp
  | some stage =>
    cases hc : stage.candidate? <;> cases hr : stage.hasReserved <;>
      simp [Stage.hold_reserved?, hc, hr]

/-- The ids that an event takes from the working sets by name. -/
def forgets (r : Relay) : Event → List Hash
  | .submitted requestIds => requestIds
  | .start id (.drop requestIds) =>
    if !Table.contains r.calls id && (r.writer.lane.join id).isHeldBy id then requestIds else []
  | .turn id =>
    match Table.get? r.calls id with
    | some (.dropping requestIds) => if r.writer.lane.isHeldBy id then requestIds else []
    | _ => []
  | _ => []

/-- The nonce that an event tells the holder of the lane. -/
def teaches? (r : Relay) : Event → Option Word
  | .reply id (.nonce (.ok nonce)) =>
    match Table.get? r.calls id with
    | some (.drafting _ _ .reading) => some nonce
    | _ => none
  | _ => none

theorem event_of_teaches {r : Relay} {e : Event} {nonce : Word} (h : r.teaches? e = some nonce) :
    ∃ id, e = .reply id (.nonce (.ok nonce)) := by
  unfold teaches? at h
  split at h
  · split at h
    · exact ⟨_, by rw [Option.some.inj h]⟩
    · cases h
  · cases h

/-- The id whose row stays behind when its call is abandoned. -/
def letsGo? (r : Relay) : Event → Option Hash
  | .abandon id => (r.holdOf id).row?.map (·.1)
  | _ => none

end Relay

/-- A move of the call `id` in a step that the event `e` causes at `r`, when the call has heard
`log`. -/
inductive Move (r : Relay) (e : Event) (id : CallId) (log : List Event) :
    Shared × Hold → Shared × Hold → Prop
  | join {s : Shared} {h : Hold} (outside : h.place = .outside) :
      Move r e id log (s, h) ({ s with lane := s.lane.join id }, { h with place := .waiting })
  | leave {s : Shared} {h : Hold} :
      Move r e id log (s, h) ({ s with lane := s.lane.leave id }, { h with place := .outside })
  | read {s : Shared} {h : Hold} (waiting : h.place = .waiting)
      (first : s.lane.standing id = .reading) :
      Move r e id log (s, h) (s, { h with place := .reading })
  | grant {s : Shared} {h : Hold} {nonce : Word} (waiting : h.place = .waiting)
      (first : s.lane.standing id = .granted nonce) :
      Move r e id log (s, h) (s, { h with place := .granted nonce })
  | learn {s : Shared} {h : Hold} {nonce : Word} (reading : h.place = .reading)
      (taught : r.teaches? e = some nonce) (untouched : s.pending = r.pending) :
      Move r e id log (s, h)
        ({ s with lane := s.lane.learn nonce }, { h with place := .granted nonce })
  | rewind {s : Shared} {h : Hold} {cutoff : Nat} (waiting : h.place = .waiting)
      (first : s.lane.isHeldBy id = true) (fits : cutoff < 2 ^ 256) :
      Move r e id log (s, h) (s.rewind cutoff, h)
  | resync {s : Shared} {h : Hold} (waiting : h.place = .waiting)
      (first : s.lane.isHeldBy id = true) :
      Move r e id log (s, h) ({ s with lane := s.lane.forget }, h)
  | reserve {s : Shared} {h : Hold} {key : Hash} {state : RequestState}
      (row : h.row? = some (key, state)) (free : h.reserved? = none) (new : key ∉ s.reserved) :
      Move r e id log (s, h)
        ({ s with reserved := s.reserved ++ [key] }, { h with reserved? := some key })
  | release {s : Shared} {h : Hold} {key : Hash} (held : h.reserved? = some key) :
      Move r e id log (s, h)
        ({ s with reserved := s.reserved.filter fun k => !List.contains [key] k },
          { h with reserved? := none })
  | enroll {s : Shared} {h : Hold} {key : Hash} (free : h.row? = none)
      (new : Table.get? s.active key = none) :
      Move r e id log (s, h)
        ({ s with active := Table.insert s.active key .detected },
          { h with row? := some (key, .detected) })
  | record {s : Shared} {h : Hold} {key : Hash} {state next : RequestState}
      (row : h.row? = some (key, state)) :
      Move r e id log (s, h)
        ({ s with active := Table.insert s.active key next }, { h with row? := some (key, next) })
  | close {s : Shared} {h : Hold} {key : Hash} {state : RequestState}
      (row : h.row? = some (key, state)) (free : h.reserved? = none) :
      Move r e id log (s, h)
        ({ s with active := Table.erase s.active key }, { h with row? := none })
  | forget {s : Shared} : Move r e id log (s, {}) (s.forget (r.forgets e), {})
  | finish {s : Shared} {h : Hold} {pair : Pair} (now : Nat)
      (row : h.row? = some (pair.requestId, pair.endState))
      (held : h.reserved? = some pair.requestId) (granted : h.place = .granted pair.write.nonce)
      (before : (r.holdOf id).place = .granted pair.write.nonce)
      (backed : pair.Backed r.config r.writer.signer id log) :
      Move r e id log (s, h)
        ({ s with
            lane := (s.lane.commit pair.write.nonce).leave id
            pending := Table.insert s.pending pair.requestId ⟨pair, now⟩ }, {})
  | attach {s : Shared} {h : Hold} {key : Hash} {entry : PendingPair} {signed : Operation}
      {pair : Pair} (stored : (key, entry) ∈ s.pending)
      (accepted : entry.pair.withSigned signed = .ok pair) :
      Move r e id log (s, h)
        ({ s with pending := Table.insert s.pending key { entry with pair } }, h)
  | letGo {s : Shared} {h : Hold} {key : Hash} {state : RequestState}
      (row : h.row? = some (key, state)) (free : h.reserved? = none)
      (gone : r.letsGo? e = some key) :
      Move r e id log (s, h) (s, { h with row? := none })

abbrev Moves (r : Relay) (e : Event) (id : CallId) (log : List Event) :=
  Relation.ReflTransGen (Move r e id log)

/-- A property of the working sets and of what every call holds is kept by the moves of a call. -/
def KeptByMoves (r : Relay) (e : Event) (id : CallId) (log : List Event)
    (P : Shared → (CallId → Hold) → Prop) : Prop :=
  ∀ {s s' : Shared} {h h' : Hold}, Move r e id log (s, h) (s', h') →
    P s (Function.update r.holdOf id h) → P s' (Function.update r.holdOf id h')

/-- What is read off the holds when one of them changes: that of the call, or of another one. -/
theorem hold_update_iff {β : Type} (read : Hold → Option β) {f : CallId → Hold} {id k : CallId}
    {h : Hold} {value : β} :
    read (Function.update f id h k) = some value ↔
      k = id ∧ read h = some value ∨ k ≠ id ∧ read (f k) = some value := by
  by_cases hk : k = id
  · subst hk
    simp
  · simp [hk]

theorem KeptByMoves.chain {r : Relay} {e : Event} {id : CallId} {log : List Event}
    {P : Shared → (CallId → Hold) → Prop} (hkept : KeptByMoves r e id log P)
    {s s' : Shared} {h h' : Hold} (hm : Moves r e id log (s, h) (s', h'))
    (hp : P s (Function.update r.holdOf id h)) : P s' (Function.update r.holdOf id h') := by
  generalize ht : (s', h') = t at hm
  induction hm generalizing s' h' with
  | refl =>
    cases ht
    exact hp
  | @tail b t _ hmove ih =>
    subst ht
    exact hkept hmove (ih rfl)

end ComputeRelay
