import ComputeRelay.Proofs.Events

/-! The course of a call: where a step can leave it, by the stage at which the step finds it. A step
moves the clock only if time passes, and no call but the one that it is addressed to. -/

namespace ComputeRelay

open Relay

/-- Whether a call works on a request, and not only on the lane. -/
def Stage.isRequest : Stage → Bool
  | .expiring _ => false
  | .dropping _ => false
  | .resyncing _ => false
  | _ => true

def Relay.Job.isRequest : Job → Bool
  | .process _ => true
  | .processSimulated _ _ => true
  | _ => false

/-- Whether a call has been working on the lane alone. -/
def Progress.isUpkeep : Progress → Bool
  | .waiting stage => !stage.isRequest
  | .finished (.released _) => true
  | .finished _ => false

/-- A request is taken on, if there is no row for it yet. -/
inductive TakenOn (deadline : Nat) : Progress → Prop
  | rejected (e : Rejection) : TakenOn deadline (rejected e)
  | resolving (c : Candidate) (due : c.deadline = deadline) :
      TakenOn deadline (.waiting (.resolving c))

/-- A simulated operation passes through, or its request is taken on, at once or after the pairs
that have expired `now`. -/
inductive Intercepted (now deadline : Nat) : Progress → Prop
  | passthrough (op : Operation) : Intercepted now deadline (.finished (.passthrough op))
  | clearing (op : Operation) (request : ComputeRequest) (block : BlockContext) :
      Intercepted now deadline (.waiting (.clearing now op request block deadline))
  | takenOn {p : Progress} (taken : TakenOn deadline p) : Intercepted now deadline p

/-- The write of an answer is drafted, up to where the served operation is simulated behind it. -/
inductive Drafted (c : Candidate) (answer : Answer) : Progress → Prop
  | rejected (e : Rejection) : Drafted c answer (rejected e)
  | drafting (stage : Drafting) : Drafted c answer (.waiting (.drafting c answer stage))
  | resimulating (c' : Candidate) (prepared : Prepared) (same : c'.requestId = c.requestId)
      (due : c'.deadline = c.deadline) :
      Drafted c answer (.waiting (.resimulating c' answer prepared))

/-- A request that is accepted waits for the latest block, unless it brings its simulation. -/
inductive Begun (r : Relay) : Progress → Prop
  | reading (op : Operation) :
      Begun r (.waiting (.readingBlock op (r.now + r.config.requestTimeoutMs.toNat)))
  | intercepted {p : Progress}
      (taken : Intercepted r.now (r.now + r.config.requestTimeoutMs.toNat) p) : Begun r p

/-- Where a step can leave a call that it finds at a stage. -/
inductive Onward (r : Relay) : Stage → Progress → Prop
  | rejected {stage : Stage} (request : stage.isRequest = true) (e : Rejection) :
      Onward r stage (rejected e)
  | unmoved (stage : Stage) : Onward r stage (.waiting stage)
  | block {op : Operation} {deadline : Nat} (block : BlockContext) :
      Onward r (.readingBlock op deadline) (.waiting (.simulating op block deadline))
  | simulated {op : Operation} {block : BlockContext} {deadline : Nat} {p : Progress}
      (taken : Intercepted r.now deadline p) : Onward r (.simulating op block deadline) p
  | cleared {since : Nat} {op : Operation} {request : ComputeRequest} {block : BlockContext}
      {deadline : Nat} {p : Progress} (taken : TakenOn deadline p) :
      Onward r (.clearing since op request block deadline) p
  | resolved {c c' : Candidate} (registration : Registration) (same : c'.requestId = c.requestId)
      (due : c'.deadline = c.deadline) :
      Onward r (.resolving c) (.waiting (.asking c' registration))
  | answered {c c' : Candidate} {registration : Registration} {answer : Answer} {p : Progress}
      (given : answer.fallback = none) (same : c'.requestId = c.requestId)
      (due : c'.deadline = c.deadline) (drafted : Drafted c' answer p) :
      Onward r (.asking c registration) p
  | stoodIn {c c' : Candidate} {registration : Registration} {answer : Answer} {p : Progress}
      (missing : answer.fallback.isSome = true) (same : c'.requestId = c.requestId)
      (due : c'.deadline = r.now + r.config.fallbackGraceMs.toNat)
      (drafted : Drafted c' answer p) : Onward r (.asking c registration) p
  | drafted {c : Candidate} {answer : Answer} {stage : Drafting} {p : Progress}
      (drafted : Drafted c answer p) : Onward r (.drafting c answer stage) p
  | paired {c : Candidate} {answer : Answer} {prepared : Prepared} (pair : Pair)
      (fee : FeeAdjustment) (l : Lifecycle) (same : pair.requestId = c.requestId)
      (fallback : pair.fallback = answer.fallback) :
      Onward r (.resimulating c answer prepared) (.finished (.paired pair fee l))
  | upkeep {stage : Stage} {p : Progress} (before : stage.isRequest = false)
      (after : p.isUpkeep = true) : Onward r stage p

/-- Only a call that has its operation simulated behind the write ends with a pair. -/
theorem Onward.of_paired {r : Relay} {stage : Stage} {pair : Pair} {fee : FeeAdjustment}
    {l : Lifecycle} (h : Onward r stage (.finished (.paired pair fee l))) :
    ∃ c answer prepared, stage = .resimulating c answer prepared ∧ pair.requestId = c.requestId ∧
      pair.fallback = answer.fallback := by
  cases h with
  | simulated taken =>
    cases taken with
    | takenOn taken => exact nomatch taken
  | cleared taken => exact nomatch taken
  | answered given same due drafted => exact nomatch drafted
  | stoodIn missing same due drafted => exact nomatch drafted
  | drafted drafted => exact nomatch drafted
  | paired _ _ _ same fallback => exact ⟨_, _, _, rfl, same, fallback⟩
  | upkeep before after => exact nomatch after

/-- The relay has changed in nothing but its working sets, and its call stands as `P` says. -/
structure Goes (r : Relay) (P : Progress → Prop) (step : Relay × Progress) : Prop where
  now : step.1.now = r.now
  calls : step.1.calls = r.calls
  course : P step.2

variable {r : Relay} {id : CallId} {c : Candidate} {answer : Answer} {P : Progress → Prop}

theorem Goes.imp {Q : Progress → Prop} {step : Relay × Progress} (hg : Goes r P step)
    (himp : ∀ p, P p → Q p) : Goes r Q step :=
  ⟨hg.now, hg.calls, himp _ hg.course⟩

theorem Goes.of_same {r' : Relay} {step : Relay × Progress} (hg : Goes r' P step)
    (hsame : r'.now = r.now ∧ r'.calls = r.calls) : Goes r P step :=
  ⟨hg.now.trans hsame.1, hg.calls.trans hsame.2, hg.course⟩

theorem enter_goes {state : RequestState} {go : Relay → Candidate → Relay × Progress}
    (hreject : ∀ e, P (rejected e))
    (hgo : ∀ l : Lifecycle,
      Goes r P (go (r.record c.requestId l.state) { c with lifecycle := l })) :
    Goes r P (r.enter c state go) := by
  unfold Relay.enter
  split
  · exact ⟨rfl, rfl, hreject _⟩
  · exact hgo _

theorem afterDrafting_goes (step : CacheWriter × DraftResult) :
    Goes r (Drafted c answer) (r.afterDrafting id c answer step) := by
  obtain ⟨w, result⟩ := step
  unfold Relay.afterDrafting
  cases result with
  | waiting stage => exact ⟨rfl, rfl, .drafting stage⟩
  | failed e => exact ⟨rfl, rfl, .rejected _⟩
  | prepared p =>
    simp only
    split
    · exact ⟨rfl, rfl, .resimulating c p rfl rfl⟩
    · split
      · exact ⟨rfl, rfl, .rejected _⟩
      · exact ⟨rfl, rfl, .resimulating _ p rfl rfl⟩

theorem afterResponse_goes (r : Relay) (id : CallId) (c : Candidate) (registration : Registration)
    (reply : Except ServiceError ComputeResponse) :
    Goes r (Onward r (.asking c registration)) (r.afterResponse id c registration reply) := by
  have hreject : ∀ e, Onward r (.asking c registration) (rejected e) := .rejected rfl
  cases reply with
  | ok response =>
    simp only [Relay.afterResponse]
    refine enter_goes hreject fun l => ?_
    simp only
    split
    · exact ⟨rfl, rfl, .rejected rfl _⟩
    · refine Goes.of_same (enter_goes hreject fun l' => ?_) ⟨rfl, rfl⟩
      exact ((afterDrafting_goes _).imp fun _ => .answered rfl rfl rfl).of_same ⟨rfl, rfl⟩
  | error e =>
    simp only [Relay.afterResponse]
    refine enter_goes hreject fun l => ?_
    simp only
    split
    · exact ⟨rfl, rfl, .rejected rfl _⟩
    · exact ((afterDrafting_goes _).imp fun _ => .stoodIn rfl rfl rfl).of_same ⟨rfl, rfl⟩

theorem afterResimulation_goes (r : Relay) (id : CallId) (c : Candidate) (answer : Answer)
    (prepared : Prepared) (reply : Except LedgerError Simulation) :
    Goes r (Onward r (.resimulating c answer prepared))
      (r.afterResimulation id c answer prepared reply) := by
  cases reply with
  | error e => exact ⟨rfl, rfl, .rejected rfl _⟩
  | ok outcome =>
    simp only [Relay.afterResimulation]
    split
    · exact ⟨rfl, rfl, .rejected rfl _⟩
    · split
      · exact ⟨rfl, rfl, .rejected rfl _⟩
      · rename_i hpair
        obtain ⟨-, -, rfl⟩ := Pair.create_eq_ok_iff.mp hpair
        split
        · exact ⟨rfl, rfl, .paired _ _ _ rfl rfl⟩
        · split
          · exact ⟨rfl, rfl, .rejected rfl _⟩
          · exact ⟨rfl, rfl, .paired _ _ _ rfl rfl⟩

theorem giveBack_same (r : Relay) (selected : Hash → PendingPair → Bool) :
    (r.giveBack selected).1.now = r.now ∧ (r.giveBack selected).1.calls = r.calls := by
  unfold Relay.giveBack
  split <;> exact ⟨rfl, rfl⟩

theorem clear_same (r : Relay) (id : CallId) (since : Nat) :
    (r.clear id since).1.now = r.now ∧ (r.clear id since).1.calls = r.calls :=
  giveBack_same r fun _ entry => r.expired since entry

theorem takeOn_goes (r : Relay) (op : Operation) (request : ComputeRequest) (block : BlockContext)
    (deadline : Nat) : Goes r (TakenOn deadline) (r.takeOn op request block deadline) := by
  unfold Relay.takeOn
  simp only
  split
  · exact ⟨rfl, rfl, .rejected _⟩
  · have hg : Goes (r.record request.requestId .detected) (TakenOn deadline)
        ((r.record request.requestId .detected).enter
          ⟨op, request, block, deadline, .start request.requestId⟩ .resolving fun r c =>
            (r, .waiting (.resolving c))) :=
      enter_goes .rejected fun l => ⟨rfl, rfl, .resolving _ rfl⟩
    exact hg.of_same ⟨rfl, rfl⟩

theorem clear_takeOn_goes (r : Relay) (id : CallId) (since : Nat) (op : Operation)
    (request : ComputeRequest) (block : BlockContext) (deadline : Nat) :
    Goes r (TakenOn deadline) ((r.clear id since).1.takeOn op request block deadline) :=
  (takeOn_goes (r.clear id since).1 op request block deadline).of_same (clear_same r id since)

theorem intercept_goes (r : Relay) (id : CallId) (op : Operation) (outcome : Simulation)
    (deadline : Nat) :
    Goes r (Intercepted r.now deadline) (r.intercept id op outcome deadline) := by
  unfold Relay.intercept
  split
  · exact ⟨rfl, rfl, .takenOn (.rejected _)⟩
  · exact ⟨rfl, rfl, .passthrough op⟩
  · rename_i request _
    split
    · simp only
      split
      · have hg := clear_takeOn_goes (r.modifyLane (·.join id)) id r.now op request outcome.block
          deadline
        exact (hg.imp fun _ => .takenOn).of_same ⟨rfl, rfl⟩
      · exact ⟨rfl, rfl, .clearing op request outcome.block⟩
    · exact (takeOn_goes r op request outcome.block deadline).imp fun _ => .takenOn

theorem dropPairs_goes (r : Relay) (id : CallId) (requestIds : List Hash) :
    Goes r (·.isUpkeep = true) (r.dropPairs id requestIds) := by
  obtain ⟨hnow, hcalls⟩ := giveBack_same r fun key _ => requestIds.contains key
  unfold Relay.dropPairs
  simp only
  split
  · exact ⟨hnow, hcalls, rfl⟩
  · exact ⟨hnow, hcalls, rfl⟩

theorem begin_request_goes {job : Job} (hjob : job.isRequest = true) (r : Relay) (id : CallId) :
    Goes r (Begun r) (r.begin id job) := by
  cases job with
  | process op => exact ⟨rfl, rfl, .reading op⟩
  | processSimulated op outcome =>
    exact (intercept_goes r id op outcome _).imp fun _ => .intercepted
  | expire => simp [Job.isRequest] at hjob
  | drop requestIds => simp [Job.isRequest] at hjob

theorem begin_upkeep_goes {job : Job} (hjob : job.isRequest = false) (r : Relay) (id : CallId) :
    Goes r (·.isUpkeep = true) (r.begin id job) := by
  cases job with
  | process op => simp [Job.isRequest] at hjob
  | processSimulated op outcome => simp [Job.isRequest] at hjob
  | expire =>
    obtain ⟨hnow, hcalls⟩ := clear_same (r.modifyLane (·.join id)) id r.now
    simp only [Relay.begin]
    split
    · split
      · exact ⟨hnow, hcalls, rfl⟩
      · exact ⟨rfl, rfl, rfl⟩
    · exact ⟨rfl, rfl, rfl⟩
  | drop requestIds =>
    simp only [Relay.begin]
    split
    · exact (dropPairs_goes (r.modifyLane (·.join id)) id requestIds).of_same ⟨rfl, rfl⟩
    · exact ⟨rfl, rfl, rfl⟩

theorem begin_same (r : Relay) (id : CallId) (job : Job) :
    (r.begin id job).1.now = r.now ∧ (r.begin id job).1.calls = r.calls := by
  cases hjob : job.isRequest with
  | true =>
    have hg := begin_request_goes hjob r id
    exact ⟨hg.now, hg.calls⟩
  | false =>
    have hg := begin_upkeep_goes hjob r id
    exact ⟨hg.now, hg.calls⟩

theorem resumeTurn_goes (r : Relay) (id : CallId) (stage : Stage) :
    Goes r (Onward r stage) (r.resumeTurn id stage) := by
  unfold Relay.resumeTurn
  split
  · exact (clear_takeOn_goes r id _ _ _ _ _).imp fun _ => .cleared
  · obtain ⟨hnow, hcalls⟩ := clear_same r id ‹Nat›
    exact ⟨hnow, hcalls, .upkeep rfl rfl⟩
  · exact (dropPairs_goes r id _).imp fun _ => .upkeep rfl
  · exact ⟨rfl, rfl, .upkeep rfl rfl⟩
  · exact (afterDrafting_goes _).imp fun _ => .drafted
  · exact ⟨rfl, rfl, .unmoved _⟩

theorem resumeReply_goes (r : Relay) (id : CallId) (stage : Stage) (reply : Reply) :
    Goes r (Onward r stage) (r.resumeReply id stage reply) := by
  unfold Relay.resumeReply
  split
  · exact ⟨rfl, rfl, .block _⟩
  · exact ⟨rfl, rfl, .rejected rfl _⟩
  · exact (intercept_goes r id _ _ _).imp fun _ => .simulated
  · exact ⟨rfl, rfl, .rejected rfl _⟩
  · rename_i c row
    split
    · exact ⟨rfl, rfl, .rejected rfl _⟩
    · exact enter_goes (.rejected rfl) fun l => ⟨rfl, rfl, .resolved _ rfl rfl⟩
  · exact ⟨rfl, rfl, .rejected rfl _⟩
  · exact afterResponse_goes r id _ _ _
  · exact (afterDrafting_goes _).imp fun _ => .drafted
  · exact (afterDrafting_goes _).imp fun _ => .drafted
  · exact afterResimulation_goes r id _ _ _ _
  · exact ⟨rfl, rfl, .unmoved _⟩

theorem resumeTimeout_goes (r : Relay) (id : CallId) (stage : Stage) :
    Goes r (Onward r stage) (r.resumeTimeout id stage) := by
  unfold Relay.resumeTimeout
  split
  · exact ⟨rfl, rfl, .rejected rfl _⟩
  · exact ⟨rfl, rfl, .rejected rfl _⟩
  · exact ⟨rfl, rfl, .rejected rfl _⟩
  · exact afterResponse_goes r id _ _ _
  · exact ⟨rfl, rfl, .rejected rfl _⟩
  · exact ⟨rfl, rfl, .rejected rfl _⟩
  · exact ⟨rfl, rfl, .unmoved _⟩

theorem abandonStage_same (r : Relay) (id : CallId) (stage : Stage) :
    (r.abandonStage id stage).now = r.now := by
  cases stage <;> rfl

theorem Resumed.goes {e : Event} {stage : Stage} {step : Relay × Progress}
    (h : Resumed r id stage e step) : Goes r (Onward r stage) step := by
  cases h with
  | turn => exact resumeTurn_goes r id stage
  | reply => exact resumeReply_goes r id stage _
  | timeout => exact resumeTimeout_goes r id stage

theorem Resumed.elapsed_eq {e : Event} {stage : Stage} {step : Relay × Progress}
    (h : Resumed r id stage e step) : elapsed e = 0 := by
  cases h <;> rfl

theorem step_now (r : Relay) (e : Event) : (r.step e).1.now = r.now + elapsed e := by
  rcases step_cases r e with ⟨id, -, h⟩ | ⟨-, h⟩
  · generalize r.step e = out at h
    cases h with
    | started job unused =>
      rw [settle_now]
      exact (begin_same r id job).1
    | resumed found resumed =>
      rw [settle_now, resumed.elapsed_eq]
      exact resumed.goes.now
    | abandoned => exact abandonStage_same r id _
  · generalize r.step e = out at h
    cases h with
    | ignored still => rw [still, Nat.add_zero]
    | attached => rfl
    | submitted => rfl
    | ticked => rfl

theorem step_calls_of_ne {e : Event} {k : CallId} (ha : r.addressee? e ≠ some k) :
    Table.get? (r.step e).1.calls k = Table.get? r.calls k := by
  rcases step_cases r e with ⟨id, ha', h⟩ | ⟨-, h⟩
  · have hne : id ≠ k := by
      rintro rfl
      exact ha ha'
    generalize r.step e = out at h
    cases h with
    | started job unused => rw [get?_settle, if_neg hne, (begin_same r id job).2]
    | resumed found resumed => rw [get?_settle, if_neg hne, resumed.goes.calls]
    | abandoned => rw [Table.get?_erase, if_neg hne]
  · generalize r.step e = out at h
    cases h <;> rfl

/-- An event leaves the call that it is addressed to on its course, unless it abandons it. -/
theorem step_onward {e : Event} {stage : Stage} (ha : r.addressee? e = some id)
    (hs : Table.get? r.calls id = some stage) (hkept : e ≠ .abandon id) :
    ∃ p, Onward r stage p ∧ Table.get? (r.step e).1.calls id = p.stage? ∧
      (r.step e).2 = p.result? := by
  obtain ⟨step, hresumed, heq⟩ := step_resumed ha hs hkept
  refine ⟨step.2, hresumed.goes.course, ?_, ?_⟩
  · rw [heq, get?_settle, if_pos rfl]
  · rw [heq, settle_result]

end ComputeRelay
