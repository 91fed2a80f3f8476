import ComputeRelay.NonceQueue
import ComputeRelay.Proofs.Line
import ComputeRelay.Proofs.WriteOrder

/-! Runs of the nonce lanes of several accounts. A step moves one task and changes the lane of its
account alone. In each lane only the first in line holds a ticket, and the nonces that are used up
between two resets of the lane count up one by one. -/

namespace ComputeRelay

namespace NonceQueue

inductive Event
  | start (id : CallId) (account : Address) (job : LaneJob)
  /-- The task has become the holder of its lane. -/
  | turn (id : CallId)
  /-- The ledger's answer to a task that reads the nonce. -/
  | reply (id : CallId) (answer : Except LedgerError Word)
  | commit (id : CallId)
  | drop (id : CallId)
  | cancel (id : CallId)

/-- One step. An event that does not apply changes nothing: a name that is in use or unknown, a turn
of a task that does not hold its lane. -/
def step (q : NonceQueue) : Event → NonceQueue
  | .start id account job => if Table.contains q.tasks id then q else q.start id account job
  | .turn id => (q.proceed id).1
  | .reply id answer => (q.nonceRead id answer).1
  | .commit id => q.commit id
  | .drop id => q.drop id
  | .cancel id => q.cancel id

def after (q : NonceQueue) (es : List Event) : NonceQueue := es.foldl step q

def stageOf (q : NonceQueue) (account : Address) (id : CallId) : Option LaneStage :=
  match Table.get? q.tasks id with
  | some task => if task.account = account then some task.stage else none
  | none => none

def placeOf : Option LaneStage → Place
  | none => .outside
  | some (.queued _) => .waiting
  | some .reading => .reading
  | some (.ticket nonce) => .granted nonce

def account? (q : NonceQueue) : Event → Option Address
  | .start _ account _ => some account
  | .turn id | .reply id _ | .commit id | .drop id | .cancel id =>
    (Table.get? q.tasks id).map (·.account)

def uses? (account : Address) (q : NonceQueue) : Event → Option Word
  | .commit id =>
    match q.stageOf account id with
    | some (.ticket nonce) => some nonce
    | _ => none
  | _ => none

def reads? (account : Address) (q : NonceQueue) : Event → Option Word
  | .reply id (.ok nonce) => if q.stageOf account id = some .reading then some nonce else none
  | _ => none

/-- What an event resets the next nonce of an account to: nothing known, or a lower nonce. -/
def resets? (account : Address) (q : NonceQueue) : Event → Option (Option Word)
  | .turn id =>
    if (q.lane account).isHeldBy id then
      match q.stageOf account id with
      | some (.queued .resync) => some none
      | some (.queued (.rewind (some target))) =>
        if (q.lane account).next.any (target.toNat < ·.toNat) then some (some target) else none
      | _ => none
    else none
  | _ => none

/-- What the events of a run show, each in the state before it. -/
def trace (show? : NonceQueue → Event → Option Word) (q : NonceQueue) : List Event → List Word
  | [] => []
  | e :: es => (show? q e).toList ++ trace show? (q.step e) es

/-- No event of the run resets the next nonce of the account. -/
def Steady (account : Address) (q : NonceQueue) : List Event → Prop
  | [] => True
  | e :: es => q.resets? account e = none ∧ Steady account (q.step e) es

instance decidableSteady (account : Address) :
    (q : NonceQueue) → (es : List Event) → Decidable (Steady account q es)
  | _, [] => isTrue trivial
  | q, e :: es =>
    have := decidableSteady account (q.step e) es
    inferInstanceAs (Decidable (_ ∧ _))

/-- A task of an account goes on with an event: where it stood, its lane afterwards, and where it
stands then. -/
inductive Moved (lane : Lane) (account : Address) (id : CallId) :
    Option LaneStage → Event → Lane → Option LaneStage → Prop
  | joined (job : LaneJob) :
      Moved lane account id none (.start id account job) (lane.join id) (some (.queued job))
  | reading (first : lane.standing id = .reading) :
      Moved lane account id (some (.queued .acquire)) (.turn id) lane (some .reading)
  | granted {nonce : Word} (first : lane.standing id = .granted nonce) :
      Moved lane account id (some (.queued .acquire)) (.turn id) lane (some (.ticket nonce))
  | resynced (first : lane.isHeldBy id = true) :
      Moved lane account id (some (.queued .resync)) (.turn id) (lane.forget.leave id) none
  | rewound (target : Option Word) (first : lane.isHeldBy id = true) :
      Moved lane account id (some (.queued (.rewind target))) (.turn id)
        ((target.elim lane lane.rewind).leave id) none
  | learned (nonce : Word) :
      Moved lane account id (some .reading) (.reply id (.ok nonce)) (lane.learn nonce)
        (some (.ticket nonce))
  | failed (error : LedgerError) :
      Moved lane account id (some .reading) (.reply id (.error error)) (lane.leave id) none
  | committed {nonce : Word} :
      Moved lane account id (some (.ticket nonce)) (.commit id) ((lane.commit nonce).leave id) none
  | dropped {nonce : Word} :
      Moved lane account id (some (.ticket nonce)) (.drop id) (lane.leave id) none
  | cancelled {stage : LaneStage} (untaken : ∀ nonce, stage ≠ .ticket nonce) :
      Moved lane account id (some stage) (.cancel id) (lane.leave id) none

/-- One task and the lane of its account are put to other states. -/
structure Puts (q : NonceQueue) (account : Address) (id : CallId) (lane : Lane)
    (stage? : Option LaneStage) (q' : NonceQueue) : Prop where
  own : q'.lane account = lane
  others : ∀ account', account' ≠ account → q'.lane account' = q.lane account'
  tasks : ∀ k, Table.get? q'.tasks k =
    if id = k then stage?.map (⟨account, ·⟩) else Table.get? q.tasks k

variable {q q' : NonceQueue} {account : Address} {id : CallId} {lane lane' : Lane}
  {e : Event} {before stage? : Option LaneStage} {f : CallId → Hold}

theorem stageOf_eq_some {stage : LaneStage} :
    q.stageOf account id = some stage ↔ Table.get? q.tasks id = some ⟨account, stage⟩ := by
  unfold stageOf
  cases Table.get? q.tasks id with
  | none => simp
  | some task =>
    obtain ⟨account', stage'⟩ := task
    by_cases ha : account' = account <;> simp [ha]

theorem lane_modifyLane (q : NonceQueue) (account account' : Address) (f : Lane → Lane) :
    (q.modifyLane account f).lane account' =
      if account = account' then f (q.lane account) else q.lane account' := by
  simp only [lane, modifyLane, Table.get?_insert]
  split <;> rfl

theorem setStage_puts (q : NonceQueue) (f : Lane → Lane) (id : CallId) (account : Address)
    (stage : LaneStage) :
    Puts q account id (f (q.lane account)) (some stage)
      ((q.modifyLane account f).setStage id account stage) := by
  refine ⟨?_, ?_, fun k => Table.get?_insert _ _ _ _⟩
  · exact (lane_modifyLane q account account f).trans (if_pos rfl)
  · intro account' hne
    exact (lane_modifyLane q account account' f).trans (if_neg (Ne.symm hne))

theorem finish_puts (q : NonceQueue) (f : Lane → Lane) (id : CallId) (account : Address) :
    Puts q account id ((f (q.lane account)).leave id) none
      ((q.modifyLane account f).finish id account) := by
  have hown : (q.modifyLane account f).lane account = f (q.lane account) :=
    (lane_modifyLane q account account f).trans (if_pos rfl)
  refine ⟨?_, ?_, fun k => Table.get?_erase _ _ _⟩
  · rw [← hown]
    exact (lane_modifyLane _ account account (·.leave id)).trans (if_pos rfl)
  · intro account' hne
    rw [← show (q.modifyLane account f).lane account' = q.lane account' from
      (lane_modifyLane q account account' f).trans (if_neg (Ne.symm hne))]
    exact (lane_modifyLane _ account account' (·.leave id)).trans (if_neg (Ne.symm hne))

theorem leave_puts (q : NonceQueue) (id : CallId) (account : Address) :
    Puts q account id ((q.lane account).leave id) none (q.finish id account) := by
  refine ⟨?_, ?_, fun k => Table.get?_erase _ _ _⟩
  · exact (lane_modifyLane q account account (·.leave id)).trans (if_pos rfl)
  · intro account' hne
    exact (lane_modifyLane q account account' (·.leave id)).trans (if_neg (Ne.symm hne))

theorem stage_puts (q : NonceQueue) (id : CallId) (account : Address) (stage : LaneStage) :
    Puts q account id (q.lane account) (some stage) (q.setStage id account stage) :=
  ⟨rfl, fun _ _ => rfl, fun _ => Table.get?_insert _ _ _ _⟩

structure Idles (q : NonceQueue) (e : Event) : Prop where
  same : q.step e = q
  uses : ∀ account, uses? account q e = none
  reads : ∀ account, reads? account q e = none
  steady : ∀ account, q.resets? account e = none

/-- One task goes on, and with it the lane of its account. -/
def Goes (q : NonceQueue) (e : Event) : Prop :=
  ∃ account id before lane stage?, Table.get? q.tasks id = before.map (⟨account, ·⟩) ∧
    Moved (q.lane account) account id before e lane stage? ∧
    Puts q account id lane stage? (q.step e)

theorem turn_first {job : LaneJob} (hget : Table.get? q.tasks id = some ⟨account, .queued job⟩)
    (first : (q.lane account).isHeldBy id = true) : Goes q (.turn id) := by
  refine ⟨account, id, some (.queued job), ?_⟩
  simp only [step, proceed, hget, first, if_true, Option.map_some, true_and]
  cases job with
  | resync => exact ⟨_, _, .resynced first, finish_puts q _ _ _⟩
  | rewind target =>
    cases target with
    | none => exact ⟨_, _, .rewound none first, leave_puts ..⟩
    | some target => exact ⟨_, _, .rewound (some target) first, finish_puts q (·.rewind target) _ _⟩
  | acquire =>
    have hhead := Lane.isHeldBy_iff.mp first
    cases hnext : (q.lane account).next with
    | none => exact ⟨_, _, .reading (Lane.standing_eq_reading.mpr ⟨hhead, hnext⟩), stage_puts ..⟩
    | some nonce =>
      exact ⟨_, _, .granted (Lane.standing_eq_granted.mpr ⟨hhead, hnext⟩), stage_puts ..⟩

theorem turn_cases (q : NonceQueue) (id : CallId) : Idles q (.turn id) ∨ Goes q (.turn id) := by
  cases hget : Table.get? q.tasks id with
  | none =>
    exact .inl ⟨by simp [step, proceed, hget], fun _ => rfl, fun _ => rfl,
      by simp [resets?, stageOf, hget]⟩
  | some task =>
    obtain ⟨account, stage⟩ := task
    cases stage with
    | queued job =>
      by_cases first : (q.lane account).isHeldBy id = true
      · exact .inr (turn_first hget first)
      · refine .inl ⟨by simp [step, proceed, hget, first], fun _ => rfl, fun _ => rfl, ?_⟩
        intro account'
        by_cases ha : account = account'
        · subst ha
          simp [resets?, first]
        · simp [resets?, stageOf, hget, ha]
    | reading =>
      refine .inl ⟨by simp [step, proceed, hget], fun _ => rfl, fun _ => rfl, fun account' => ?_⟩
      by_cases ha : account = account' <;> simp [resets?, stageOf, hget, ha]
    | ticket nonce =>
      refine .inl ⟨by simp [step, proceed, hget], fun _ => rfl, fun _ => rfl, fun account' => ?_⟩
      by_cases ha : account = account' <;> simp [resets?, stageOf, hget, ha]

theorem reply_cases (q : NonceQueue) (id : CallId) (answer : Except LedgerError Word) :
    Idles q (.reply id answer) ∨ Goes q (.reply id answer) := by
  by_cases hread : ∃ account, Table.get? q.tasks id = some ⟨account, .reading⟩
  · obtain ⟨account, hget⟩ := hread
    refine .inr ⟨account, id, some .reading, ?_⟩
    simp only [step, nonceRead, reading?, hget, Option.map_some, true_and]
    cases answer with
    | error error => exact ⟨_, _, .failed error, leave_puts ..⟩
    | ok nonce => exact ⟨_, _, .learned nonce, setStage_puts q (·.learn nonce) ..⟩
  · have hnone : q.reading? id = none := by
      unfold reading?
      split
      · rename_i account hget
        exact absurd ⟨account, hget⟩ hread
      · rfl
    have hstage : ∀ account, q.stageOf account id ≠ some .reading := by
      intro account hs
      exact hread ⟨account, stageOf_eq_some.mp hs⟩
    refine .inl ⟨by simp [step, nonceRead, hnone], fun _ => rfl, ?_, fun _ => rfl⟩
    intro account
    cases answer <;> simp [reads?, hstage]

theorem commit_cases (q : NonceQueue) (id : CallId) :
    Idles q (.commit id) ∨ Goes q (.commit id) := by
  by_cases hheld : ∃ account nonce, Table.get? q.tasks id = some ⟨account, .ticket nonce⟩
  · obtain ⟨account, nonce, hget⟩ := hheld
    refine .inr ⟨account, id, some (.ticket nonce), _, _, hget, .committed, ?_⟩
    simp only [step, commit, hget]
    exact finish_puts q (·.commit nonce) _ _
  · have hstage : ∀ account nonce, q.stageOf account id ≠ some (.ticket nonce) := by
      intro account nonce hs
      exact hheld ⟨account, nonce, stageOf_eq_some.mp hs⟩
    refine .inl ⟨?_, ?_, fun _ => rfl, fun _ => rfl⟩
    · simp only [step, commit]
      split
      · rename_i account nonce hget
        exact absurd ⟨account, nonce, hget⟩ hheld
      · rfl
    · intro account
      simp only [uses?]
      split
      · rename_i nonce hs
        exact absurd hs (hstage account nonce)
      · rfl

theorem step_cases (q : NonceQueue) (e : Event) : Idles q e ∨ Goes q e := by
  cases e with
  | start id account job =>
    by_cases hin : Table.contains q.tasks id = true
    · exact .inl ⟨by simp [step, hin], fun _ => rfl, fun _ => rfl, fun _ => rfl⟩
    · have hnone : Table.get? q.tasks id = none := by simpa [Table.contains] using hin
      refine .inr ⟨account, id, none, _, _, hnone, .joined job, ?_⟩
      simp only [step, hin]
      exact setStage_puts q (·.join id) ..
  | turn id => exact turn_cases q id
  | reply id answer => exact reply_cases q id answer
  | commit id => exact commit_cases q id
  | drop id =>
    simp only [Goes, step, drop]
    split
    · rename_i account nonce hget
      exact .inr ⟨account, id, some _, _, _, hget, .dropped, leave_puts ..⟩
    · exact .inl ⟨by simp only [step, drop], fun _ => rfl, fun _ => rfl, fun _ => rfl⟩
  | cancel id =>
    cases hget : Table.get? q.tasks id with
    | none =>
      exact .inl ⟨by simp [step, cancel, hget], fun _ => rfl, fun _ => rfl, fun _ => rfl⟩
    | some task =>
      obtain ⟨account, stage⟩ := task
      by_cases htaken : ∃ nonce, stage = .ticket nonce
      · obtain ⟨nonce, rfl⟩ := htaken
        exact .inl ⟨by simp [step, cancel, hget], fun _ => rfl, fun _ => rfl, fun _ => rfl⟩
      · have huntaken : ∀ nonce, stage ≠ .ticket nonce := fun nonce hs => htaken ⟨nonce, hs⟩
        refine .inr ⟨account, id, some stage, _, _, hget, .cancelled huntaken, ?_⟩
        simp only [step, cancel, hget]
        cases stage with
        | ticket nonce => exact absurd rfl (huntaken nonce)
        | _ => exact leave_puts ..

def hold (q : NonceQueue) (account : Address) (id : CallId) : Hold :=
  { place := placeOf (q.stageOf account id) }

structure Orderly (q : NonceQueue) (account : Address) : Prop where
  inLine : InLine { lane := q.lane account } (q.hold account)
  unread : ∀ id, q.stageOf account id = some .reading → (q.lane account).next = none

theorem stageOf_of_get? {account' : Address}
    (hget : Table.get? q.tasks id = before.map (⟨account, ·⟩)) :
    q.stageOf account' id = if account = account' then before else none := by
  rw [stageOf, hget]
  cases before with
  | none => simp
  | some stage => rfl

theorem Puts.stageOf (hp : Puts q account id lane stage? q')
    (hget : Table.get? q.tasks id = before.map (⟨account, ·⟩)) (account' : Address) (k : CallId) :
    q'.stageOf account' k =
      if account = account' ∧ id = k then stage? else q.stageOf account' k := by
  by_cases hk : id = k
  · subst hk
    have hget' : Table.get? q'.tasks id = stage?.map (⟨account, ·⟩) := by
      simpa using hp.tasks id
    rw [stageOf_of_get? hget, stageOf_of_get? hget']
    by_cases ha : account = account' <;> simp [ha]
  · have hsame : Table.get? q'.tasks k = Table.get? q.tasks k := by
      simpa [hk] using hp.tasks k
    simp [NonceQueue.stageOf, hsame, hk]

theorem Puts.hold_own (hp : Puts q account id lane stage? q')
    (hget : Table.get? q.tasks id = before.map (⟨account, ·⟩)) :
    q'.hold account = Function.update (q.hold account) id { place := placeOf stage? } := by
  funext k
  by_cases hk : k = id
  · subst hk
    simp [hold, hp.stageOf hget]
  · simp [hold, hp.stageOf hget, hk, Ne.symm hk]

theorem Moved.next (hm : Moved lane account id before e lane' stage?)
    (hi : InLine { lane } (Function.update f id { place := placeOf before })) :
    lane'.next = lane.next ∨ lane.line.head? = some id := by
  have hfirst : (placeOf before).isFirst = true → lane.line.head? = some id :=
    fun hf => hi.first id (by simpa using hf)
  cases hm with
  | resynced first => exact .inr (Lane.isHeldBy_iff.mp first)
  | rewound target first => exact .inr (Lane.isHeldBy_iff.mp first)
  | learned => exact .inr (hfirst rfl)
  | committed => exact .inr (hfirst rfl)
  | _ => exact .inl rfl

theorem Moved.inLine (hm : Moved lane account id before e lane' stage?)
    (hi : InLine { lane } (Function.update f id { place := placeOf before })) :
    InLine { lane := lane' } (Function.update f id { place := placeOf stage? }) := by
  have hfirst : (placeOf before).isFirst = true → lane.line.head? = some id :=
    fun hf => hi.first id (by simpa using hf)
  have hnext := hm.next hi
  cases hm with
  | joined job => exact hi.join rfl
  | reading first =>
    have hhead := (Lane.standing_eq_reading.mp first).1
    exact hi.hold hhead rfl (by simp [placeOf]) (by simp [placeOf])
  | granted first =>
    obtain ⟨hhead, hknown⟩ := Lane.standing_eq_granted.mp first
    exact hi.hold hhead rfl (by simp [placeOf]) (by simp [placeOf, hknown])
  | learned nonce =>
    exact hi.hold (hfirst rfl) rfl (by simp [placeOf]) (by simp [placeOf, Lane.learn])
  | rewound target first =>
    refine hi.leave ?_ hnext rfl
    cases target <;> rfl
  | _ => exact hi.leave rfl hnext rfl

theorem Moved.unread (hm : Moved lane account id before e lane' (some .reading)) :
    lane'.next = none := by
  cases hm with
  | reading first => exact (Lane.standing_eq_reading.mp first).2

theorem Puts.orderly_own (hp : Puts q account id lane stage? q')
    (hget : Table.get? q.tasks id = before.map (⟨account, ·⟩))
    (hm : Moved (q.lane account) account id before e lane stage?) (ho : Orderly q account) :
    Orderly q' account := by
  have hown : q.stageOf account id = before := by simp [stageOf_of_get? hget]
  have hi : InLine { lane := q.lane account }
      (Function.update (q.hold account) id { place := placeOf before }) := by
    rw [← hown]
    exact (Function.update_eq_self id (q.hold account)).symm ▸ ho.inLine
  constructor
  · rw [hp.own, hp.hold_own hget]
    exact hm.inLine hi
  · intro k hk
    rw [hp.stageOf hget] at hk
    rw [hp.own]
    by_cases hid : id = k
    · have hread : stage? = some .reading := by simpa [hid] using hk
      subst hread
      exact hm.unread
    · have hread : q.stageOf account k = some .reading := by simpa [hid] using hk
      have hfirst := ho.inLine.first k (by simp [hold, hread, placeOf, Place.isFirst])
      rcases hm.next hi with hnext | hhead
      · rw [hnext]
        exact ho.unread k hread
      · exact absurd (Option.some.inj (hhead.symm.trans hfirst)) hid

theorem Puts.orderly_other (hp : Puts q account id lane stage? q')
    (hget : Table.get? q.tasks id = before.map (⟨account, ·⟩)) {account' : Address}
    (hne : account' ≠ account) (ho : Orderly q account') : Orderly q' account' := by
  have hstage : q'.stageOf account' = q.stageOf account' := by
    funext k
    rw [hp.stageOf hget, if_neg fun h => hne h.1.symm]
  have hhold : q'.hold account' = q.hold account' := by
    funext k
    simp [hold, hstage]
  constructor
  · rw [hp.others account' hne, hhold]
    exact ho.inLine
  · rw [hp.others account' hne, hstage]
    exact ho.unread

theorem step_orderly (e : Event) (ho : ∀ account, Orderly q account) (account : Address) :
    Orderly (q.step e) account := by
  rcases step_cases q e with hidle | ⟨account', id, before, lane, stage?, hget, hm, hp⟩
  · rw [hidle.same]
    exact ho account
  · by_cases ha : account = account'
    · subst ha
      exact hp.orderly_own hget hm (ho account)
    · exact hp.orderly_other hget ha (ho account)

theorem run_orderly (es : List Event) (account : Address) :
    Orderly (({} : NonceQueue).after es) account := by
  induction es using List.reverseRecOn generalizing account with
  | nil => exact ⟨idle_inLine, by rintro id ⟨⟩⟩
  | append_singleton es e ih =>
    simp only [after, List.foldl_append, List.foldl_cons, List.foldl_nil]
    exact step_orderly e ih account

/-- What an event does to the next nonce of an account. -/
inductive Counted (q : NonceQueue) (account : Address) (e : Event) : Prop
  | reset (next : Option Word) (resets : q.resets? account e = some next)
      (now : ((q.step e).lane account).next = next)
  | used (nonce : Word) (steady : q.resets? account e = none)
      (uses : uses? account q e = some nonce) (reads : reads? account q e = none)
      (known : (q.lane account).next = some nonce)
      (now : ((q.step e).lane account).next = some (nonce + 1))
  | told (nonce : Word) (steady : q.resets? account e = none)
      (uses : uses? account q e = none) (reads : reads? account q e = some nonce)
      (unknown : (q.lane account).next = none)
      (now : ((q.step e).lane account).next = some nonce)
  | same (steady : q.resets? account e = none) (uses : uses? account q e = none)
      (reads : reads? account q e = none)
      (now : ((q.step e).lane account).next = (q.lane account).next)

theorem rewind_next (lane : Lane) (target : Word) : (lane.rewind target).next =
    if lane.next.any (target.toNat < ·.toNat) then some target else lane.next := by
  cases hnext : lane.next with
  | none => simp [Lane.rewind, hnext]
  | some next => by_cases hlow : target.toNat < next.toNat <;> simp [Lane.rewind, hnext, hlow]

theorem Puts.counted_own (hp : Puts q account id lane stage? (q.step e))
    (hget : Table.get? q.tasks id = before.map (⟨account, ·⟩))
    (hm : Moved (q.lane account) account id before e lane stage?) (ho : Orderly q account) :
    Counted q account e := by
  have hown : q.stageOf account id = before := by simp [stageOf_of_get? hget]
  have hnow := congrArg Lane.next hp.own
  cases hm with
  | joined job => exact .same rfl rfl rfl hnow
  | reading first => exact .same (by simp [resets?, hown]) rfl rfl hnow
  | granted first => exact .same (by simp [resets?, hown]) rfl rfl hnow
  | resynced first => exact .reset none (by simp [resets?, hown, first]) hnow
  | rewound target first =>
    cases target with
    | none => exact .same (by simp [resets?, hown]) rfl rfl hnow
    | some target =>
      have hlane := hnow.trans (rewind_next (q.lane account) target)
      by_cases hlow : (q.lane account).next.any (target.toNat < ·.toNat) = true
      · exact .reset (some target) (by simp [resets?, hown, first, hlow])
          (by rw [hlane, if_pos hlow])
      · exact .same (by simp [resets?, hown, hlow]) rfl rfl (by rw [hlane, if_neg hlow])
  | learned nonce =>
    exact .told nonce rfl rfl (by simp [reads?, hown]) (ho.unread id hown) hnow
  | @committed nonce =>
    have hknown := ho.inLine.known id nonce (by simp [hold, hown, placeOf])
    exact .used nonce rfl (by simp [uses?, hown]) rfl hknown hnow
  | failed error => exact .same rfl rfl rfl hnow
  | dropped => exact .same rfl rfl rfl hnow
  | cancelled untaken => exact .same rfl rfl rfl hnow

theorem Moved.shows_nothing (hm : Moved lane account id before e lane' stage?)
    {account' : Address} (hnone : q.stageOf account' id = none) :
    q.resets? account' e = none ∧ uses? account' q e = none ∧ reads? account' q e = none := by
  cases hm <;> simp [resets?, uses?, reads?, hnone]

theorem step_counted (e : Event) (ho : Orderly q account) : Counted q account e := by
  rcases step_cases q e with hidle | ⟨account', id, before, lane, stage?, hget, hm, hp⟩
  · exact .same (hidle.steady account) (hidle.uses account) (hidle.reads account)
      (by rw [hidle.same])
  · by_cases ha : account = account'
    · subst ha
      exact hp.counted_own hget hm ho
    · have hnone : q.stageOf account id = none := by
        rw [stageOf_of_get? hget, if_neg (Ne.symm ha)]
      obtain ⟨hresets, huses, hreads⟩ := hm.shows_nothing hnone
      exact .same hresets huses hreads (congrArg Lane.next (hp.others account ha))

/-- The nonce that the next ticket of a lane carries when nothing resets the lane: the known one, or
else the one that the ledger tells first. -/
def base? (q : NonceQueue) (account : Address) (more : List Event) : Option Word :=
  (q.lane account).next.or (trace (reads? account) q more).head?

/-- The nonces that the run uses up count up from the base. -/
structure Counts (q : NonceQueue) (account : Address) (more : List Event) : Prop where
  nothing : q.base? account more = none →
    trace (uses? account) q more = [] ∧ ((q.after more).lane account).next = none
  upwards : ∀ b, q.base? account more = some b →
    trace (uses? account) q more = noncesFrom b (trace (uses? account) q more).length ∧
      ((q.after more).lane account).next =
        some (b + BitVec.ofNat 256 (trace (uses? account) q more).length)

theorem Counts.of_unused {more : List Event} (uses : uses? account q e = none)
    (hbase : (q.step e).base? account more = q.base? account (e :: more))
    (hc : Counts (q.step e) account more) : Counts q account (e :: more) := by
  have huses : trace (uses? account) q (e :: more) = trace (uses? account) (q.step e) more := by
    simp [trace, uses]
  constructor
  · rw [← hbase, huses]
    exact hc.nothing
  · rw [← hbase, huses]
    exact hc.upwards

theorem Counts.of_used {more : List Event} {nonce : Word} (uses : uses? account q e = some nonce)
    (known : (q.lane account).next = some nonce)
    (now : ((q.step e).lane account).next = some (nonce + 1))
    (hc : Counts (q.step e) account more) : Counts q account (e :: more) := by
  have hbase : q.base? account (e :: more) = some nonce := by simp [base?, known]
  have huses : trace (uses? account) q (e :: more) =
      nonce :: trace (uses? account) (q.step e) more := by
    simp [trace, uses]
  obtain ⟨hcount, hlast⟩ := hc.upwards (nonce + 1) (by simp [base?, now])
  have hsum : ∀ n, nonce + 1 + BitVec.ofNat 256 n = nonce + BitVec.ofNat 256 (n + 1) := by
    intro n
    rw [BitVec.ofNat_add, BitVec.add_assoc, BitVec.add_comm (BitVec.ofNat 256 n)]
    rfl
  constructor
  · rw [hbase]
    rintro ⟨⟩
  · intro b hb
    obtain rfl : nonce = b := Option.some.inj (hbase.symm.trans hb)
    rw [huses, List.length_cons, noncesFrom_succ, ← hcount, ← hsum]
    exact ⟨rfl, hlast⟩

theorem run_counts (more : List Event) (ho : ∀ account, Orderly q account)
    (hsteady : Steady account q more) : Counts q account more := by
  induction more generalizing q with
  | nil =>
    constructor
    · intro hnone
      exact ⟨rfl, by simpa [base?, trace, after] using hnone⟩
    · intro b hb
      exact ⟨rfl, by simpa [base?, trace, after] using hb⟩
  | cons e more ih =>
    obtain ⟨hreset, hrest⟩ := hsteady
    have hi := ih (step_orderly e ho) hrest
    cases step_counted e (ho account) with
    | reset next resets => cases hreset.symm.trans resets
    | used nonce steady uses reads known now => exact hi.of_used uses known now
    | told nonce steady uses reads unknown now =>
      exact hi.of_unused uses (by simp [base?, trace, reads, now, unknown])
    | same steady uses reads now => exact hi.of_unused uses (by simp [base?, trace, reads, now])

/-- The tickets of an account, and the next nonce of its lane as events of all accounts follow. -/
structure InTurn (q : NonceQueue) (account : Address) : Prop where
  alone : ∀ a b m n, q.stageOf account a = some (.ticket m) →
    q.stageOf account b = some (.ticket n) → a = b
  next : ∀ id nonce, q.stageOf account id = some (.ticket nonce) →
    (q.lane account).next = some nonce
  counts : ∀ more, Steady account q more → Counts q account more
  reset : ∀ e target, q.resets? account e = some target →
    ((q.step e).lane account).next = target
  dropped : ∀ id, ((q.step (.drop id)).lane account).next = (q.lane account).next
  cancelled : ∀ id, ((q.step (.cancel id)).lane account).next = (q.lane account).next
  failed : ∀ id error, ((q.step (.reply id (.error error))).lane account).next =
    (q.lane account).next
  lowers : ∀ id target, q.stageOf account id = some (.queued (.rewind target)) →
    ∀ n', ((q.step (.turn id)).lane account).next = some n' →
      ∃ n, (q.lane account).next = some n ∧ n'.toNat ≤ n.toNat
  apart : ∀ e, q.account? e ≠ some account → (q.step e).lane account = q.lane account

theorem Orderly.alone (ho : Orderly q account) {a b : CallId} {m n : Word}
    (ha : q.stageOf account a = some (.ticket m)) (hb : q.stageOf account b = some (.ticket n)) :
    a = b := by
  have hfa := ho.inLine.first a (by simp [hold, ha, placeOf, Place.isFirst])
  have hfb := ho.inLine.first b (by simp [hold, hb, placeOf, Place.isFirst])
  exact Option.some.inj (hfa.symm.trans hfb)

theorem next_of_unread (ho : Orderly q account) (hreset : q.resets? account e = none)
    (huses : uses? account q e = none) (hreads : reads? account q e = none) :
    ((q.step e).lane account).next = (q.lane account).next := by
  cases step_counted e ho with
  | reset next resets => cases hreset.symm.trans resets
  | used nonce steady uses => cases huses.symm.trans uses
  | told nonce steady uses reads => cases hreads.symm.trans reads
  | same steady uses reads now => exact now

theorem rewind_lowers {target : Option Word} (ho : Orderly q account)
    (hs : q.stageOf account id = some (.queued (.rewind target))) {n' : Word}
    (hn : ((q.step (.turn id)).lane account).next = some n') :
    ∃ n, (q.lane account).next = some n ∧ n'.toNat ≤ n.toNat := by
  cases step_counted (.turn id) ho with
  | reset next resets now =>
    cases target with
    | none => simp [resets?, hs] at resets
    | some target =>
      by_cases hlow : (q.lane account).next.any (target.toNat < ·.toNat) = true
      · obtain ⟨n, hknown, hlt⟩ := (Option.any_eq_true _ _).mp hlow
        have hnext : some target = next := by
          by_cases hheld : (q.lane account).isHeldBy id = true
          · simpa [resets?, hs, hheld, hlow] using resets
          · simp [resets?, hheld] at resets
        obtain rfl : target = n' := Option.some.inj (hnext.trans (now.symm.trans hn))
        exact ⟨n, hknown, by simpa using le_of_lt (of_decide_eq_true hlt)⟩
      · simp [resets?, hs, hlow] at resets
  | used nonce steady uses => cases uses
  | told nonce steady uses reads => cases reads
  | same steady uses reads now => exact ⟨n', now ▸ hn, le_rfl⟩

theorem lane_of_apart (e : Event) (hne : q.account? e ≠ some account) :
    (q.step e).lane account = q.lane account := by
  rcases step_cases q e with hidle | ⟨account', id, before, lane, stage?, hget, hm, hp⟩
  · rw [hidle.same]
  · refine hp.others account ?_
    rintro rfl
    apply hne
    cases hm <;> simp [account?, hget]

theorem run_inTurn (es : List Event) (account : Address) :
    InTurn (({} : NonceQueue).after es) account := by
  have ho := run_orderly es
  have hown := ho account
  exact {
    alone := fun a b m n => hown.alone
    next := fun id nonce hs => hown.inLine.known id nonce (by simp [hold, hs, placeOf])
    counts := fun more => run_counts more ho
    reset := by
      intro e target hreset
      cases step_counted e hown with
      | reset next resets now => exact now.trans (Option.some.inj (resets.symm.trans hreset))
      | used nonce steady => cases steady.symm.trans hreset
      | told nonce steady => cases steady.symm.trans hreset
      | same steady => cases steady.symm.trans hreset
    dropped := fun _ => next_of_unread hown rfl rfl rfl
    cancelled := fun _ => next_of_unread hown rfl rfl rfl
    failed := fun _ _ => next_of_unread hown rfl rfl rfl
    lowers := fun id target hs n' => rewind_lowers hown hs
    apart := fun e hne => lane_of_apart e hne }

/-- The nonce is read once and counted on across a dropped ticket, while another account has a lane
of its own. -/
example :
    let more : List Event := [.start "a" 1 .acquire, .turn "a", .start "b" 1 .acquire,
      .start "c" 2 .acquire, .turn "c", .reply "a" (.ok 40), .commit "a", .turn "b", .drop "b",
      .reply "c" (.ok 7), .commit "c", .start "d" 1 .acquire, .turn "d", .commit "d"]
    Steady 1 {} more ∧ base? {} 1 more = some 40 ∧ trace (uses? 1) {} more = [40, 41] := by
  decide

end NonceQueue

end ComputeRelay
