import ComputeRelay.Proofs.Openings

/-! How requests end. A call that processes an operation goes one way only, by what detection says
about the simulation that it has heard: it passes the operation through, or reports the marker, and
has touched nothing by then; or it works on the request that was found, and asks the service once at
most. -/

namespace ComputeRelay

open Relay

namespace Relay

/-- The call of the off-chain service that a call waits for. -/
def consulting? (r : Relay) (id : CallId) : Option (Registration × ComputeRequest) :=
  match Table.get? r.calls id with
  | some (.asking c registration) => some (registration, c.request)
  | _ => none

/-- The calls of the service after an event, from those before it. -/
def consult (r : Relay) (id : CallId) (asked : List (Registration × ComputeRequest)) (e : Event) :
    List (Registration × ComputeRequest) :=
  if r.addressee? e = some id then
    (match e with
      | .start _ _ => []
      | _ => asked) ++ ((r.step e).1.consulting? id).toList
  else asked

def consultedFrom (id : CallId) :
    Relay → List (Registration × ComputeRequest) → List Event →
      List (Registration × ComputeRequest)
  | _, asked, [] => asked
  | r, asked, e :: es => consultedFrom id (r.step e).1 (r.consult id asked e) es

/-- The calls of the service that a call has made since it last began. -/
def consulted (r : Relay) (es : List Event) (id : CallId) :
    List (Registration × ComputeRequest) :=
  consultedFrom id r [] es

theorem consultedFrom_concat (id : CallId) (r : Relay)
    (asked : List (Registration × ComputeRequest)) (es : List Event) (e : Event) :
    consultedFrom id r asked (es ++ [e]) =
      (r.after es).consult id (consultedFrom id r asked es) e := by
  induction es generalizing r asked with
  | nil => rfl
  | cons e' es ih => exact ih (r.step e').1 (r.consult id asked e')

theorem consulted_concat (r : Relay) (es : List Event) (e : Event) (id : CallId) :
    r.consulted (es ++ [e]) id = (r.after es).consult id (r.consulted es id) e :=
  consultedFrom_concat id r [] es e

end Relay

variable {r : Relay} {id : CallId} {c : Candidate} {log : List Event} {config : Config}
  {signer : Signer}

/-- The service was asked what the found request asks, as the row says that its account is
registered. -/
def Resolved (id : CallId) (log : List Event) (asked : Registration × ComputeRequest) : Prop :=
  ∃ outcome row, heardOutcome? log = some outcome ∧
    finding? log = some (.ok (some asked.2)) ∧ Event.reply id (.row (.ok row)) ∈ log ∧
    row.check asked.2.account outcome.block = .ok asked.1

structure Consulted (id : CallId) (log : List Event)
    (asked : List (Registration × ComputeRequest)) : Prop where
  once : asked.length ≤ 1
  resolved : ∀ a ∈ asked, Resolved id log a

theorem Consulted.nil (id : CallId) (log : List Event) : Consulted id log [] :=
  ⟨Nat.zero_le 1, by simp⟩

theorem Consulted.append {asked : List (Registration × ComputeRequest)}
    (h : Consulted id log asked) (more : List Event) : Consulted id (log ++ more) asked := by
  refine ⟨h.once, ?_⟩
  intro a ha
  obtain ⟨outcome, row, houtcome, hfinding, hrow, hcheck⟩ := h.resolved a ha
  exact ⟨outcome, row, heardOutcome?_append houtcome more, finding?_append hfinding more,
    List.mem_append_left more hrow, hcheck⟩

theorem consulted_asking {config : Config} {signer : Signer} {registration : Registration}
    (ho : (Stage.asking c registration).Opened id log)
    (hb : (Stage.asking c registration).Backed config signer id log) :
    Consulted id log [(registration, c.request)] := by
  refine ⟨Nat.le_refl 1, ?_⟩
  intro a ha
  obtain rfl := List.mem_singleton.mp ha
  obtain ⟨-, ⟨hrow, hcheck⟩, -⟩ := hb
  cases ho with
  | @working _ op request outcome works began gave found =>
    have hwork : (c.op, c.request, c.block) = (op, request, outcome.block) :=
      Option.some.inj works
    obtain ⟨-, hwork⟩ := Prod.mk.inj hwork
    obtain ⟨rfl, hblock⟩ := Prod.mk.inj hwork
    rw [hblock] at hcheck
    exact ⟨_, _, gave, (finding?_eq_some began gave).trans (congrArg some found), hrow, hcheck⟩
  | upkeep kind => cases kind

theorem Stage.asking_of_rank {stage : Stage} (h : stage.rank = 4) :
    ∃ c registration, stage = .asking c registration := by
  cases stage with
  | asking c registration => exact ⟨c, registration, rfl⟩
  | drafting c answer stage => cases stage <;> cases h
  | _ => cases h

/-- A call comes to ask the service from before it only, and never comes back. -/
theorem Resumed.early {e : Event} {stage stage' : Stage} {r' : Relay}
    (h : Resumed r id stage e (r', .waiting stage')) (hs : Table.get? r.calls id = some stage)
    (hline : InLine r.shared r.holdOf) (ho : stage.Opened id log)
    (hb : stage.Backed r.config r.writer.signer id log) (hrank : stage'.rank ≤ 4) :
    stage.rank < 4 := by
  cases ho with
  | reading => exact (by omega : 0 < 4)
  | simulating => exact (by omega : 1 < 4)
  | working works began gave found =>
    rcases h.pursued works hb with ⟨rfl, heq⟩ | hp
    · cases heq
      refine Nat.lt_of_le_of_ne hrank ?_
      intro hfour
      obtain ⟨c, registration, rfl⟩ := Stage.asking_of_rank hfour
      cases h with
      | turn first => cases first.symm.trans (outside_not_first hline hs rfl)
    · cases hp with
      | waiting works later => omega
  | upkeep kind =>
    cases stage with
    | expiring => exact (by omega : 0 < 4)
    | dropping => exact (by omega : 0 < 4)
    | resyncing => exact (by omega : 1 < 4)
    | _ => cases kind

theorem consulting?_eq_none {stage : Stage} (hs : Table.get? r.calls id = some stage)
    (hrank : stage.rank ≠ 4) : r.consulting? id = none := by
  rw [consulting?, hs]
  cases stage with
  | asking => exact absurd rfl hrank
  | _ => rfl

theorem consulting?_of_gone (hs : Table.get? r.calls id = none) : r.consulting? id = none := by
  rw [consulting?, hs]

/-- What a call has asked of the service, where it waits. -/
structure Stage.Consults (id : CallId) (log : List Event)
    (asked : List (Registration × ComputeRequest)) (stage : Stage) : Prop where
  consulted : Consulted id log asked
  early : stage.rank < 4 → asked = []

/-- The service is asked at most once more, by a call that has not asked it yet. -/
theorem Consulted.step {asked : List (Registration × ComputeRequest)}
    (h : Consulted id log asked)
    (hstage : ∀ stage, Table.get? r.calls id = some stage →
      (stage.rank ≤ 4 → asked = []) ∧ stage.Opened id log ∧ stage.Backed config signer id log) :
    Consulted id log (asked ++ (r.consulting? id).toList) ∧
      ∀ stage, Table.get? r.calls id = some stage →
        stage.Consults id log (asked ++ (r.consulting? id).toList) := by
  cases hs : Table.get? r.calls id with
  | none =>
    rw [consulting?_of_gone hs, Option.toList_none, List.append_nil]
    refine ⟨h, ?_⟩
    intro stage hs'
    cases hs'
  | some stage =>
    obtain ⟨early, ho, hb⟩ := hstage stage hs
    have hconsults : stage.Consults id log (asked ++ (r.consulting? id).toList) := by
      by_cases hasks : stage.rank = 4
      · rw [early (Nat.le_of_eq hasks), List.nil_append]
        obtain ⟨c, registration, rfl⟩ := Stage.asking_of_rank hasks
        have hconsulting : r.consulting? id = some (registration, c.request) := by
          rw [consulting?, hs]
        rw [hconsulting]
        exact ⟨consulted_asking ho hb, fun hlt => absurd hasks (Nat.ne_of_lt hlt)⟩
      · rw [consulting?_eq_none hs hasks, Option.toList_none, List.append_nil]
        exact ⟨h, fun hlt => early (Nat.le_of_lt hlt)⟩
    refine ⟨hconsults.consulted, ?_⟩
    intro stage' hs'
    obtain rfl := Option.some.inj hs'
    exact hconsults

theorem step_consulted {es : List Event} {e : Event}
    (ha : ((idle config signer).after es).addressee? e = some id)
    (hbefore : ∀ stage, Table.get? ((idle config signer).after es).calls id = some stage →
      stage.Consults id ((idle config signer).heard es id) ((idle config signer).consulted es id)) :
    Consulted id ((idle config signer).heard (es ++ [e]) id)
        ((idle config signer).consulted (es ++ [e]) id) ∧
      ∀ stage, Table.get? ((idle config signer).after (es ++ [e])).calls id = some stage →
        stage.Consults id ((idle config signer).heard (es ++ [e]) id)
          ((idle config signer).consulted (es ++ [e]) id) := by
  obtain ⟨hconfig, hsigner, hb⟩ := run_backed config signer es
  have hline := run_inLine config signer es
  have ho := run_opened config signer es id
  have ho' := run_opened config signer (es ++ [e]) id
  have hb' := (run_backed config signer (es ++ [e])).2.2 id
  replace hb := hb id
  rw [after_concat, heard_concat] at ho' hb'
  rw [after_concat, heard_concat, consulted_concat]
  generalize (idle config signer).heard es id = log at *
  generalize (idle config signer).consulted es id = asked at *
  generalize (idle config signer).after es = r at *
  unfold consult
  rw [if_pos ha]
  have h := step_addressed ha
  generalize r.step e = out at h ho' hb' ⊢
  cases h with
  | started job unused =>
    exact (Consulted.nil id _).step fun stage hs => ⟨fun _ => rfl, ho' stage hs, hb' stage hs⟩
  | @resumed before _ step found resumed =>
    have hbacked := hb before found
    rw [← hconfig, ← hsigner] at hbacked
    have hgrown : Consulted id (r.hear id log e) asked := by
      rw [resumed.hear_eq ha]
      exact (hbefore before found).consulted.append [e]
    have hearly : ∀ stage, Table.get? (settle id step).1.calls id = some stage →
        stage.rank ≤ 4 → asked = [] := by
      intro stage hs hrank
      rw [get?_settle, if_pos rfl] at hs
      obtain ⟨r', p⟩ := step
      obtain rfl := Progress.stage?_eq_some.mp hs
      exact (hbefore before found).early (resumed.early found hline (ho before found) hbacked hrank)
    have hstep := hgrown.step fun stage hs => ⟨hearly stage hs, ho' stage hs, hb' stage hs⟩
    cases resumed with
    | turn => exact hstep
    | reply => exact hstep
    | timeout => exact hstep
  | @abandoned stage found =>
    have hgrown : Consulted id (r.hear id log (.abandon id)) asked := by
      have hheard : r.hear id log (.abandon id) = log ++ [.abandon id] := if_pos ha
      rw [hheard]
      exact (hbefore stage found).consulted.append _
    exact hgrown.step fun stage hs => ⟨by simp [Table.get?_erase] at hs, ho' stage hs, hb' stage hs⟩

theorem run_consulted (config : Config) (signer : Signer) (es : List Event) :
    ∀ id stage, Table.get? ((idle config signer).after es).calls id = some stage →
      stage.Consults id ((idle config signer).heard es id)
        ((idle config signer).consulted es id) := by
  induction es using List.reverseRecOn with
  | nil =>
    intro id stage hs
    simp [idle, Table.get?] at hs
  | append_singleton es e ih =>
    intro id stage hs
    by_cases ha : ((idle config signer).after es).addressee? e = some id
    · exact (step_consulted ha (ih id)).2 stage hs
    · rw [after_concat, step_calls_of_ne ha] at hs
      have hasked : (idle config signer).consulted (es ++ [e]) id =
          (idle config signer).consulted es id := by
        rw [consulted_concat]
        exact if_neg ha
      rw [heard_concat_of_ne ha, hasked]
      exact ih id stage hs

theorem heardOperation?_append_of_ne {log : List Event} (h : log ≠ []) (more : List Event) :
    heardOperation? (log ++ more) = heardOperation? log := by
  cases log with
  | nil => exact absurd rfl h
  | cons e log =>
    cases e with
    | start id job => cases job <;> rfl
    | _ => rfl

theorem heard_ne_nil {r : Relay} {es : List Event} {e : Event}
    (ha : (r.after es).addressee? e = some id) : r.heard (es ++ [e]) id ≠ [] := by
  rw [heard_concat]
  unfold hear
  rw [if_pos ha]
  cases e <;> simp

theorem not_started_of_inFlight (h : r.InFlight id) (k : CallId) (job : Job) :
    r.addressee? (.start k job) ≠ some id := by
  simp only [addressee?]
  split
  · simp
  · rename_i hunused
    intro heq
    obtain rfl := Option.some.inj heq
    exact hunused h

/-- As long as a call is in flight, it hears nothing but more. -/
theorem heard_since {r : Relay} {before rest : List Event}
    (hin : Throughout (fun r _ => r.InFlight id) (r.after before) rest) :
    ∃ more, r.heard (before ++ rest) id = r.heard before id ++ more := by
  induction rest using List.reverseRecOn with
  | nil => exact ⟨[], by rw [List.append_nil, List.append_nil]⟩
  | append_singleton rest e ih =>
    obtain ⟨hrest, hlast⟩ := throughout_concat.mp hin
    obtain ⟨more, hmore⟩ := ih hrest
    rw [← after_append] at hlast
    rw [← List.append_assoc, heard_concat, hmore]
    unfold hear
    by_cases ha : (r.after (before ++ rest)).addressee? e = some id
    · rw [if_pos ha]
      cases e with
      | start k job => exact absurd ha (not_started_of_inFlight hlast k job)
      | _ => exact ⟨_, List.append_assoc _ _ _⟩
    · rw [if_neg ha]
      exact ⟨more, rfl⟩

theorem settle_untouched (r : Relay) (id : CallId) (p : Progress) :
    (settle id (r, p)).1 = { r with calls := (settle id (r, p)).1.calls } := by
  cases p <;> rfl

/-- Before a request is found a call touches nothing. -/
theorem step_untouched {es : List Event} {e : Event}
    (ha : ((idle config signer).after es).addressee? e = some id)
    (began : (heardOperation? ((idle config signer).heard (es ++ [e]) id)).isSome = true)
    (hnone : ∀ request,
      finding? ((idle config signer).heard (es ++ [e]) id) ≠ some (.ok (some request))) :
    (((idle config signer).after es).step e).1 =
      { (idle config signer).after es with
        calls := (((idle config signer).after es).step e).1.calls } := by
  have ho := run_opened config signer es id
  by_cases hkept : e = .abandon id
  · subst hkept
    have hheard : (idle config signer).heard (es ++ [.abandon id]) id =
        (idle config signer).heard es id ++ [.abandon id] := by
      rw [heard_concat]
      exact if_pos ha
    rw [hheard] at began hnone
    have h := step_addressed ha
    generalize ((idle config signer).after es).step (.abandon id) = out at h ⊢
    cases h with
    | resumed found resumed => cases resumed
    | @abandoned stage found =>
      cases ho stage found with
      | reading => rfl
      | simulating => rfl
      | working works began gave found =>
        have hfinding := (finding?_eq_some began gave).trans (congrArg some found)
        exact absurd (finding?_append hfinding _) (hnone _)
      | upkeep kind hbegan idle =>
        rw [hbegan, heardOperation?_append_of_ne (List.cons_ne_nil _ _),
          heardOperation?_upkeep idle] at began
        cases began
  · obtain ⟨⟨r', p⟩, hstep, htells⟩ := step_tells ha ho hkept
    obtain rfl : r' = (idle config signer).after es := htells.untouched began hnone
    rw [hstep]
    exact settle_untouched _ id p

/-- A call that processes an operation has one result at most. Detection alone decides whether the
operation passes through, and neither that nor a faulty marker has touched anything or asked the
service; a request that is found ends with a pair, or is rejected properly. The service is asked
once at most, and only for an account that the registry knows. -/
theorem request_endings {es : List Event} {e : Event} {op : Operation}
    (own : ((idle config signer).after es).addressee? e = some id)
    (began : heardOperation? ((idle config signer).heard (es ++ [e]) id) = some op) :
    (∀ result, (((idle config signer).after es).step e).2 = some result →
      Table.get? ((idle config signer).after (es ++ [e])).calls id = none ∧
        Ending config.systemAccount op
          (finding? ((idle config signer).heard (es ++ [e]) id)) result) ∧
    ((((idle config signer).after es).step e).2 = none → e ≠ .abandon id →
      (∃ stage, Table.get? ((idle config signer).after (es ++ [e])).calls id = some stage) ∧
        (finding? ((idle config signer).heard (es ++ [e]) id) = none ∨
          ∃ request, finding? ((idle config signer).heard (es ++ [e]) id) =
            some (.ok (some request)))) ∧
    ((∀ request, finding? ((idle config signer).heard (es ++ [e]) id) ≠
        some (.ok (some request))) →
      (idle config signer).consulted (es ++ [e]) id = [] ∧
      ∀ es₁ e₁ es₂, es ++ [e] = es₁ ++ e₁ :: es₂ →
        ((idle config signer).after es₁).addressee? e₁ = some id →
        Throughout (fun r _ => r.InFlight id) ((idle config signer).after (es₁ ++ [e₁])) es₂ →
        (idle config signer).after (es₁ ++ [e₁]) =
          { (idle config signer).after es₁ with
            calls := ((idle config signer).after (es₁ ++ [e₁])).calls }) ∧
    ((idle config signer).consulted (es ++ [e]) id).length ≤ 1 ∧
    ∀ asked ∈ (idle config signer).consulted (es ++ [e]) id,
      Resolved id ((idle config signer).heard (es ++ [e]) id) asked := by
  have ho := run_opened config signer es id
  have hconsulted := (step_consulted own (run_consulted config signer es id)).1
  refine ⟨?_, ?_, ?_, hconsulted.once, hconsulted.resolved⟩
  · intro result hresult
    have hgone := ended_of_result own hresult
    rw [after_concat]
    refine ⟨hgone, ?_⟩
    obtain ⟨⟨r', p⟩, hstep, htells⟩ := step_tells own ho (ne_abandon_of_result hresult id)
    rw [hstep] at hresult
    obtain rfl := eq_finished_of_settle hresult
    have hending := htells.told op began
    have hconfig : ((idle config signer).after es).systemAccount = config.systemAccount :=
      congrArg Config.systemAccount (run_backed config signer es).1
    rwa [hconfig] at hending
  · intro hresult hkept
    obtain ⟨⟨r', p⟩, hstep, htells⟩ := step_tells own ho hkept
    rw [hstep, settle_result] at hresult
    cases p with
    | finished result => cases hresult
    | waiting stage =>
      rw [after_concat, hstep, get?_settle, if_pos rfl]
      exact ⟨⟨stage, rfl⟩, Stage.Opened.undecided htells.told⟩
  · intro hnone
    refine ⟨?_, ?_⟩
    · rw [List.eq_nil_iff_forall_not_mem]
      intro asked hmem
      obtain ⟨outcome, row, -, hfinding, -⟩ := hconsulted.resolved asked hmem
      exact hnone _ hfinding
    · intro es₁ e₁ es₂ hsplit ha hin
      have hall : es ++ [e] = (es₁ ++ [e₁]) ++ es₂ := by
        rw [hsplit, List.append_assoc, List.singleton_append]
      obtain ⟨more, hmore⟩ := heard_since hin
      rw [hall, hmore] at began hnone
      rw [heardOperation?_append_of_ne (heard_ne_nil ha)] at began
      rw [after_concat]
      refine step_untouched ha (Option.isSome_of_eq_some began) ?_
      intro request hfinding
      exact hnone request (finding?_append hfinding more)

/-- What a call hears that processes an operation whose simulation succeeds. -/
def Sample.passing : List Event :=
  [.start "a" (.process (Sample.op 0xb1)), .reply "a" (.block (.ok ⟨0, 0, 0⟩))]

/-- What a call hears on its way to a pair, but for the last simulation. -/
def Sample.readied : List Event :=
  first.asked "a" ++ [.reply "a" (.nonce (.ok 0)), .clean "a"]

/-- It waits for that simulation, which gives it the pair. -/
theorem Sample.after_readied : ∃ c answer prepared, c.op = first.op ∧ c.request = first.request ∧
    Table.get? ((idle Sample.config Sample.signer).after readied).calls "a" =
      some (.resimulating c answer prepared) ∧
    ∃ pair fee l, (((idle Sample.config Sample.signer).after readied).step (.clean "a")).2 =
      some (.paired pair fee l) := by
  obtain ⟨write, hb⟩ := CacheWriter.exists_build
    (w := { config := Sample.config, signer := Sample.signer }) (fun _ => ⟨_, rfl⟩) first.op
    first.key first.response 0
  let c := first.candidate (0 + Sample.config.requestTimeoutMs.toNat)
  let r₁ : Relay :=
    { idle Sample.config Sample.signer with
      writer := {
        config := Sample.config, signer := Sample.signer, reserved := [firstKey],
        lane := ⟨none, ["a"]⟩ }
      active := [(firstKey, .populating)]
      calls := [("a", .drafting c ⟨first.response, none⟩ .reading)] }
  have h₁ : (idle Sample.config Sample.signer).after (first.asked "a") = r₁ :=
    Answerable.after_asked (Answerable.welcome_idle _ _ _) rfl
  let r₂ : Relay :=
    { r₁ with
      writer := { r₁.writer with lane := r₁.writer.lane.learn 0 }
      calls := Table.insert r₁.calls "a" (.drafting c ⟨first.response, none⟩ (.simulating write)) }
  have h₂ : (r₁.step (.reply "a" (.nonce (.ok 0)))).1 = r₂ := by
    rw [nonce_reply (c := c) rfl hb]
  have hs₂ : Table.get? r₂.calls "a" =
      some (.drafting c ⟨first.response, none⟩ (.simulating write)) :=
    Table.get?_insert_self _ _ _
  have hsender : first.op.sender ≠ Sample.config.systemAccount := by decide
  have hfees : FeesFit Sample.config first.op := by decide
  obtain ⟨-, pair, fee, l, -, hfinished⟩ :=
    after_simulations hs₂ (fun _ => ⟨_, _, rfl⟩) hb hsender hfees
  have hafter : (idle Sample.config Sample.signer).after readied = (r₂.step (.clean "a")).1 := by
    rw [readied, after_append, h₁, after_cons, h₂, after_cons, after_nil]
  let answer : Answer := ⟨first.response, none⟩
  refine ⟨{ c with lifecycle := c.lifecycle.repriced answer }, answer, ⟨write, .clean⟩, rfl, rfl,
    ?_, pair, fee, l, ?_⟩
  · rw [hafter, write_reply hs₂ (fun _ => ⟨_, _, rfl⟩)]
    exact Table.get?_insert_self _ _ _
  · rw [hafter, hfinished]

/-- An operation that simulates without fault passes through, and the service is asked nothing; a
request that is answered well ends with its pair, and the service is asked once at most. -/
theorem sample_endings :
    ((((idle Sample.config Sample.signer).after Sample.passing).step (.clean "a")).2 =
        some (.passthrough (Sample.op 0xb1)) ∧
      Ending Sample.config.systemAccount (Sample.op 0xb1) (some (.ok none))
        (.passthrough (Sample.op 0xb1)) ∧
      (idle Sample.config Sample.signer).consulted (Sample.passing ++ [.clean "a"]) "a" = []) ∧
    ∃ pair fee l,
      (((idle Sample.config Sample.signer).after Sample.readied).step (.clean "a")).2 =
        some (.paired pair fee l) ∧
      Ending Sample.config.systemAccount Sample.first.op
        (some (.ok (some Sample.first.request))) (.paired pair fee l) ∧
      ((idle Sample.config Sample.signer).consulted
        (Sample.readied ++ [.clean "a"]) "a").length ≤ 1 := by
  constructor
  · have own : ((idle Sample.config Sample.signer).after Sample.passing).addressee? (.clean "a") =
        some "a" := rfl
    have began : heardOperation? ((idle Sample.config Sample.signer).heard
        (Sample.passing ++ [.clean "a"]) "a") = some (Sample.op 0xb1) := rfl
    have hfinding : finding? ((idle Sample.config Sample.signer).heard
        (Sample.passing ++ [.clean "a"]) "a") = some (.ok none) := rfl
    obtain ⟨hends, -, huntouched, -⟩ := request_endings own began
    rw [hfinding] at hends huntouched
    exact ⟨rfl, (hends _ rfl).2, (huntouched (by simp)).1⟩
  · obtain ⟨c, answer, prepared, hop, hrequest, hs, pair, fee, l, hresult⟩ := Sample.after_readied
    have own : ((idle Sample.config Sample.signer).after Sample.readied).addressee? (.clean "a") =
        some "a" := addressee_reply hs rfl
    have hheard : (idle Sample.config Sample.signer).heard (Sample.readied ++ [.clean "a"]) "a" =
        (idle Sample.config Sample.signer).heard Sample.readied "a" ++ [.clean "a"] :=
      (heard_concat _ _ _ _).trans (if_pos own)
    have hopened := run_opened Sample.config Sample.signer Sample.readied "a" _ hs
    cases hopened with
    | upkeep kind => cases kind
    | working works hop' gave found =>
      obtain ⟨rfl, rfl, -⟩ : c.op = _ ∧ c.request = _ ∧ _ := by simpa [Stage.work?] using works
      have began := heardOperation?_append hop' [.clean "a"]
      have hfinding := finding?_append (finding?_eq_some hop' gave) [.clean "a"]
      rw [← hheard, hop] at began
      rw [← hheard, found, hrequest] at hfinding
      obtain ⟨hends, -, -, honce, -⟩ := request_endings own began
      rw [hfinding] at hends
      exact ⟨pair, fee, l, hresult, (hends _ hresult).2, honce⟩

end ComputeRelay
