import ComputeRelay.Proofs.Pursuit
import ComputeRelay.Proofs.Rejections

/-! What a call has heard of its operation. Detection looks at one simulation of it, and says
whether there is a request: up to then the call has touched nothing, and from then on it works on
that request. -/

namespace ComputeRelay

open Relay

/-- The operation that a call began with. -/
def heardOperation? : List Event → Option Operation
  | .start _ (.process op) :: _ => some op
  | .start _ (.processSimulated op _) :: _ => some op
  | _ => none

/-- The simulation of the operation: the call began with it, or was given it for the latest
block. -/
def heardOutcome? : List Event → Option Simulation
  | .start _ (.processSimulated _ outcome) :: _ => some outcome
  | .start _ (.process _) :: .reply _ (.block (.ok _)) ::
      .reply _ (.simulation (.ok outcome)) :: _ => some outcome
  | _ => none

/-- What detection says about the operation, once there is a simulation of it. -/
def finding? (log : List Event) : Option (Except MarkerError (Option ComputeRequest)) :=
  (heardOperation? log).bind fun op => (heardOutcome? log).map (detect op)

theorem heardOperation?_append {log : List Event} {op : Operation}
    (h : heardOperation? log = some op) (more : List Event) :
    heardOperation? (log ++ more) = some op := by
  unfold heardOperation? at h
  split at h
  · exact h
  · exact h
  · cases h

theorem heardOutcome?_append {log : List Event} {outcome : Simulation}
    (h : heardOutcome? log = some outcome) (more : List Event) :
    heardOutcome? (log ++ more) = some outcome := by
  unfold heardOutcome? at h
  split at h
  · exact h
  · exact h
  · cases h

theorem finding?_eq_some {log : List Event} {op : Operation} {outcome : Simulation}
    (hop : heardOperation? log = some op) (houtcome : heardOutcome? log = some outcome) :
    finding? log = some (detect op outcome) := by
  rw [finding?, hop, houtcome]
  rfl

theorem finding?_append {log : List Event} {found : Except MarkerError (Option ComputeRequest)}
    (h : finding? log = some found) (more : List Event) : finding? (log ++ more) = some found := by
  obtain ⟨op, hop, h⟩ := Option.bind_eq_some_iff.mp h
  obtain ⟨outcome, houtcome, rfl⟩ := Option.map_eq_some_iff.mp h
  exact finding?_eq_some (heardOperation?_append hop more) (heardOutcome?_append houtcome more)

/-- How a call ends that processes an operation, by what detection says about it. -/
inductive Ending (systemAccount : Address) (op : Operation) :
    Option (Except MarkerError (Option ComputeRequest)) → Result → Prop
  | unread (e : LedgerError) : Ending systemAccount op none (.rejected (.ledger e))
  | late : Ending systemAccount op none (.rejected (.timeout .detected))
  | passthrough : Ending systemAccount op (some (.ok none)) (.passthrough op)
  | marker (e : MarkerError) : Ending systemAccount op (some (.error e)) (.rejected (.marker e))
  | paired {request : ComputeRequest} {pair : Pair} {fee : FeeAdjustment} {l : Lifecycle}
      (passed : Passed pair.fallback l.history) :
      Ending systemAccount op (some (.ok (some request))) (.paired pair fee l)
  | rejected {request : ComputeRequest} {e : Rejection} (proper : e.Proper systemAccount op) :
      Ending systemAccount op (some (.ok (some request))) (.rejected e)

/-- What a call has heard, where it waits. -/
inductive Stage.Opened (id : CallId) (log : List Event) : Stage → Prop
  | reading {op : Operation} {deadline : Nat} (heard : log = [.start id (.process op)]) :
      Opened id log (.readingBlock op deadline)
  | simulating {op : Operation} {block : BlockContext} {deadline : Nat}
      (heard : log = [.start id (.process op), .reply id (.block (.ok block))]) :
      Opened id log (.simulating op block deadline)
  | working {stage : Stage} {op : Operation} {request : ComputeRequest} {outcome : Simulation}
      (works : stage.work? = some (op, request, outcome.block))
      (began : heardOperation? log = some op) (gave : heardOutcome? log = some outcome)
      (found : detect op outcome = .ok (some request)) : Opened id log stage
  | upkeep {stage : Stage} {job : Job} {rest : List Event} (kind : stage.isRequest = false)
      (began : log = .start id job :: rest) (idle : job.isRequest = false) : Opened id log stage

def Progress.Told (systemAccount : Address) (id : CallId) (log : List Event) : Progress → Prop
  | .waiting stage => stage.Opened id log
  | .finished result =>
    ∀ op, heardOperation? log = some op → Ending systemAccount op (finding? log) result

/-- A step tells nothing but what its call has heard of, and before a request is found it touches
nothing. -/
structure Tells (r : Relay) (id : CallId) (log : List Event) (step : Relay × Progress) : Prop where
  told : step.2.Told r.systemAccount id log
  untouched : (heardOperation? log).isSome = true →
    (∀ request, finding? log ≠ some (.ok (some request))) → step.1 = r

variable {r : Relay} {id : CallId} {systemAccount : Address} {op : Operation}
  {request : ComputeRequest} {rank : Nat} {log : List Event} {outcome : Simulation}
  {config : Config} {signer : Signer}

theorem heardOperation?_upkeep {job : Job} {rest : List Event} (idle : job.isRequest = false) :
    heardOperation? (.start id job :: rest) = none := by
  cases job <;> first | rfl | cases idle

theorem Stage.Opened.undecided {stage : Stage} (h : stage.Opened id log) :
    finding? log = none ∨ ∃ request, finding? log = some (.ok (some request)) := by
  cases h with
  | reading heard =>
    subst heard
    exact .inl rfl
  | simulating heard =>
    subst heard
    exact .inl rfl
  | working works began gave found =>
    exact .inr ⟨_, (finding?_eq_some began gave).trans (congrArg some found)⟩
  | upkeep kind began idle =>
    subst began
    rw [finding?, heardOperation?_upkeep idle]
    exact .inl rfl

theorem Pursued.told {p : Progress} (began : heardOperation? log = some op)
    (gave : heardOutcome? log = some outcome) (found : detect op outcome = .ok (some request))
    (h : Pursued systemAccount op request outcome.block rank p) : p.Told systemAccount id log := by
  have hfinding : finding? log = some (.ok (some request)) :=
    (finding?_eq_some began gave).trans (congrArg some found)
  cases h with
  | waiting works later => exact .working works began gave found
  | paired passed =>
    intro op' _
    rw [hfinding]
    exact .paired passed
  | rejected proper =>
    intro op' began'
    obtain rfl := Option.some.inj (began.symm.trans began')
    rw [hfinding]
    exact .rejected proper

theorem intercept_tells (began : heardOperation? log = some op)
    (gave : heardOutcome? log = some outcome) (r : Relay) (id : CallId) (deadline : Nat) :
    Tells r id log (r.intercept id op outcome deadline) := by
  have hfinding : finding? log = some (detect op outcome) := finding?_eq_some began gave
  cases hfound : detect op outcome with
  | error e =>
    have hstep : r.intercept id op outcome deadline = (r, rejected (.marker e)) := by
      rw [Relay.intercept, hfound]
    rw [hstep]
    refine ⟨fun op' began' => ?_, fun _ _ => rfl⟩
    rw [hfinding, hfound]
    exact .marker e
  | ok found? =>
    cases found? with
    | none =>
      have hstep : r.intercept id op outcome deadline = (r, .finished (.passthrough op)) := by
        rw [Relay.intercept, hfound]
      rw [hstep]
      refine ⟨fun op' began' => ?_, fun _ _ => rfl⟩
      obtain rfl := Option.some.inj (began.symm.trans began')
      rw [hfinding, hfound]
      exact .passthrough
    | some request =>
      refine ⟨(intercept_pursued hfound r id deadline).told began gave hfound, ?_⟩
      intro _ hnone
      exact absurd (hfinding.trans (congrArg some hfound)) (hnone request)

theorem begin_tells (r : Relay) (id : CallId) (job : Job) :
    Tells r id [.start id job] (r.begin id job) := by
  cases hjob : job.isRequest with
  | false =>
    have hnone : heardOperation? [.start id job] = none := heardOperation?_upkeep hjob
    have hkind := (begin_upkeep_goes hjob r id).course
    refine ⟨?_, fun hsome => by rw [hnone] at hsome; cases hsome⟩
    generalize (r.begin id job).2 = p at hkind
    cases p with
    | waiting stage => exact .upkeep (by simpa [Progress.isUpkeep] using hkind) rfl hjob
    | finished result =>
      intro op began
      cases hnone.symm.trans began
  | true =>
    cases job with
    | process op => exact ⟨.reading rfl, fun _ _ => rfl⟩
    | processSimulated op outcome => exact intercept_tells rfl rfl r id _
    | expire => cases hjob
    | drop => cases hjob

/-- Only a call that stands in line for the lane can be the first there. -/
theorem outside_not_first {stage : Stage} (hline : InLine r.shared r.holdOf)
    (hs : Table.get? r.calls id = some stage) (hplace : stage.hold.place = .outside) :
    r.writer.lane.isHeldBy id = false := by
  by_contra hfirst
  have hhead := Lane.isHeldBy_iff.mp (by simpa using hfirst)
  refine (hline.mem_iff id).mp (List.mem_of_head? hhead) ?_
  rw [holdOf, hs]
  exact hplace

theorem Resumed.tells {e : Event} {stage : Stage} {step : Relay × Progress}
    (h : Resumed r id stage e step) (hs : Table.get? r.calls id = some stage)
    (hline : InLine r.shared r.holdOf) (ho : stage.Opened id log)
    (hb : stage.Backed r.config r.writer.signer id log) : Tells r id (log ++ [e]) step := by
  cases ho with
  | reading heard =>
    subst heard
    cases h with
    | turn first => cases first.symm.trans (outside_not_first hline hs rfl)
    | @reply reply expected =>
      cases reply with
      | block reply =>
        cases reply with
        | ok block => exact ⟨.simulating rfl, fun _ _ => rfl⟩
        | error e => exact ⟨fun op _ => .unread e, fun _ _ => rfl⟩
      | _ => cases expected
    | timeout passed => exact ⟨fun op _ => .late, fun _ _ => rfl⟩
  | simulating heard =>
    subst heard
    cases h with
    | turn first => cases first.symm.trans (outside_not_first hline hs rfl)
    | @reply reply expected =>
      cases reply with
      | simulation reply =>
        cases reply with
        | ok outcome => exact intercept_tells rfl rfl r id _
        | error e => exact ⟨fun op _ => .unread e, fun _ _ => rfl⟩
      | _ => cases expected
    | timeout passed => exact ⟨fun op _ => .late, fun _ _ => rfl⟩
  | working works began gave found =>
    have began' := heardOperation?_append began [e]
    have gave' := heardOutcome?_append gave [e]
    refine ⟨?_, ?_⟩
    · rcases h.pursued works hb with ⟨-, rfl⟩ | hp
      · exact .working works began' gave' found
      · exact hp.told began' gave' found
    · intro _ hnone
      exact absurd ((finding?_eq_some began' gave').trans (congrArg some found)) (hnone _)
  | @upkeep _ job rest kind began idle =>
    subst began
    have hnone : heardOperation? (.start id job :: rest ++ [e]) = none :=
      heardOperation?_upkeep idle
    have hkind : step.2.isUpkeep = true := by
      by_contra hp
      cases kind.symm.trans (h.goes.course.isRequest (by simpa using hp))
    refine ⟨?_, fun hsome => by rw [hnone] at hsome; cases hsome⟩
    obtain ⟨r', p⟩ := step
    cases p with
    | waiting stage => exact .upkeep (by simpa [Progress.isUpkeep] using hkind) rfl idle
    | finished result =>
      intro op began
      cases hnone.symm.trans began

theorem step_tells {es : List Event} {e : Event}
    (ha : ((idle config signer).after es).addressee? e = some id)
    (ho : ∀ stage, Table.get? ((idle config signer).after es).calls id = some stage →
      stage.Opened id ((idle config signer).heard es id)) (hkept : e ≠ .abandon id) :
    ∃ step, ((idle config signer).after es).step e = settle id step ∧
      Tells ((idle config signer).after es) id
        ((idle config signer).heard (es ++ [e]) id) step := by
  obtain ⟨hconfig, hsigner, hb⟩ := run_backed config signer es
  replace hb := hb id
  have hline := run_inLine config signer es
  rw [heard_concat]
  generalize (idle config signer).heard es id = log at ho hb
  generalize (idle config signer).after es = r at ha ho hconfig hsigner hb hline ⊢
  have h := step_addressed ha
  generalize r.step e = out at h ⊢
  cases h with
  | started job unused =>
    have hheard : r.hear id log (.start id job) = [.start id job] := if_pos ha
    rw [hheard]
    exact ⟨_, rfl, begin_tells r id job⟩
  | @resumed stage _ step found resumed =>
    rw [resumed.hear_eq ha]
    have hbacked := hb stage found
    rw [← hconfig, ← hsigner] at hbacked
    exact ⟨_, rfl, resumed.tells found hline (ho stage found) hbacked⟩
  | abandoned => exact absurd rfl hkept

/-- In every run every call has heard what it takes to wait where it waits. -/
theorem run_opened (config : Config) (signer : Signer) (es : List Event) :
    ∀ id stage, Table.get? ((idle config signer).after es).calls id = some stage →
      stage.Opened id ((idle config signer).heard es id) := by
  induction es using List.reverseRecOn with
  | nil =>
    intro id stage hs
    simp [idle, Table.get?] at hs
  | append_singleton es e ih =>
    intro id stage hs
    rw [after_concat] at hs
    by_cases ha : ((idle config signer).after es).addressee? e = some id
    · have hkept : e ≠ .abandon id := by
        rintro rfl
        have h := step_addressed ha
        generalize ((idle config signer).after es).step (.abandon id) = out at h hs
        cases h with
        | resumed found resumed => cases resumed
        | abandoned => simp [Table.get?_erase] at hs
      obtain ⟨⟨r', p⟩, heq, htells⟩ := step_tells ha (ih id) hkept
      rw [heq, get?_settle, if_pos rfl] at hs
      obtain rfl := Progress.stage?_eq_some.mp hs
      exact htells.told
    · rw [step_calls_of_ne ha] at hs
      rw [heard_concat_of_ne ha]
      exact ih id stage hs

end ComputeRelay
