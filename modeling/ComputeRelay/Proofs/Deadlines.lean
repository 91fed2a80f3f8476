import ComputeRelay.Proofs.Answerable
import ComputeRelay.Proofs.Course

/-! Deadlines. Time passes only as far as the next deadline of a call in flight, since a call whose
deadline has come goes on at once. A call that stands in line to clear expired pairs waits without a
deadline, and it is late by as much as it stands there after its own. -/

namespace ComputeRelay

open Relay

/-- Time passes no further than to the deadlines of the calls in flight. -/
def InTime (r : Relay) (e : Event) : Prop :=
  elapsed e = 0 ∨ ∀ id stage d, Table.get? r.calls id = some stage → stage.deadline? = some d →
    r.now + elapsed e ≤ d

def Stage.isClearing : Stage → Bool
  | .clearing _ _ _ _ _ => true
  | _ => false

/-- The call is in flight, and does not stand in line for expired pairs after `u`. -/
def ClearsBy (u : Nat) (id : CallId) (r : Relay) : Prop :=
  ∃ stage, Table.get? r.calls id = some stage ∧ (stage.isClearing = true → r.now ≤ u)

/-- A request with this answer is due, and not overdue: at `limit` without a fallback, which it can
reach as late as `u`, and with one by the end of the grace period after that. -/
def Candidate.Due (c : Candidate) (answer : Answer) (limit u grace now : Nat) : Prop :=
  match answer.fallback with
  | none => c.deadline = limit ∧ now ≤ u
  | some _ => c.deadline ≤ u + grace ∧ now ≤ u + grace

theorem Candidate.Due.elapse {c : Candidate} {answer : Answer} {limit u grace now later : Nat}
    (hc : c.Due answer limit u grace now) (hu : limit ≤ u) (hlater : later ≤ c.deadline) :
    c.Due answer limit u grace later := by
  unfold Candidate.Due at hc ⊢
  split at hc
  · exact ⟨hc.1, hlater.trans (hc.1.le.trans hu)⟩
  · exact ⟨hc.1, hlater.trans hc.1⟩

theorem Candidate.Due.now_le {c : Candidate} {answer : Answer} {limit u grace now : Nat}
    (hc : c.Due answer limit u grace now) : now ≤ u + grace := by
  unfold Candidate.Due at hc
  split at hc
  · exact hc.2.trans (Nat.le_add_right u grace)
  · exact hc.2

def Stage.Due (limit u grace now : Nat) : Stage → Prop
  | .readingBlock _ d => d = limit ∧ now ≤ limit
  | .simulating _ _ d => d = limit ∧ now ≤ limit
  | .clearing _ _ _ _ d => d = limit
  | .resolving c => c.deadline = limit ∧ now ≤ u
  | .asking c _ => c.deadline = limit ∧ now ≤ u
  | .drafting c answer _ => c.Due answer limit u grace now
  | .resimulating c answer _ => c.Due answer limit u grace now
  | _ => False

theorem Stage.Due.isRequest {stage : Stage} {limit u grace now : Nat}
    (hd : stage.Due limit u grace now) : stage.isRequest = true := by
  cases stage with
  | expiring => exact hd.elim
  | dropping => exact hd.elim
  | resyncing => exact hd.elim
  | _ => rfl

section

variable {r : Relay} {id : CallId} {e : Event} {stage : Stage} {p : Progress}
  {limit u grace now : Nat}

theorem TakenOn.due (h : TakenOn limit p) (hnow : now ≤ u) (hp : p.stage? = some stage) :
    stage.Due limit u grace now := by
  cases h with
  | rejected => exact nomatch hp
  | resolving c hc =>
    cases hp
    exact ⟨hc, hnow⟩

theorem Intercepted.due (h : Intercepted now limit p) (hnow : now ≤ u)
    (hp : p.stage? = some stage) : stage.Due limit u grace now := by
  cases h with
  | passthrough => exact nomatch hp
  | clearing =>
    cases hp
    rfl
  | takenOn taken => exact taken.due hnow hp

theorem Drafted.due {c : Candidate} {answer : Answer} (h : Drafted c answer p)
    (hc : c.Due answer limit u grace now) (hp : p.stage? = some stage) :
    stage.Due limit u grace now := by
  cases h with
  | rejected => exact nomatch hp
  | drafting =>
    cases hp
    exact hc
  | resimulating c' prepared same hd =>
    cases hp
    simpa [Stage.Due, Candidate.Due, hd] using hc

theorem Onward.due (h : Onward r stage p) (hu : limit ≤ u)
    (hgrace : r.config.fallbackGraceMs.toNat = grace) (hd : stage.Due limit u grace r.now)
    (hclears : stage.isClearing = true → r.now ≤ u)
    {stage' : Stage} (hp : p.stage? = some stage') : stage'.Due limit u grace r.now := by
  cases h with
  | rejected => exact nomatch hp
  | unmoved =>
    cases hp
    exact hd
  | block =>
    cases hp
    exact hd
  | simulated taken =>
    obtain ⟨rfl, hnow⟩ := hd
    exact taken.due (hnow.trans hu) hp
  | cleared taken =>
    obtain rfl : _ = limit := hd
    exact taken.due (hclears rfl) hp
  | resolved registration same hdue =>
    cases hp
    exact ⟨hdue.trans hd.1, hd.2⟩
  | answered given same hdue drafted =>
    refine drafted.due ?_ hp
    simp only [Candidate.Due, given]
    exact ⟨hdue.trans hd.1, hd.2⟩
  | stoodIn missing same hdue drafted =>
    refine drafted.due ?_ hp
    obtain ⟨code, hcode⟩ := Option.isSome_iff_exists.mp missing
    have hnow : r.now ≤ u := hd.2
    simp only [Candidate.Due, hcode]
    omega
  | drafted drafted => exact drafted.due hd hp
  | paired => exact nomatch hp
  | upkeep before =>
    rw [hd.isRequest] at before
    exact nomatch before

theorem Begun.due (h : Begun r p) (hdue : r.now + r.config.requestTimeoutMs.toNat = limit)
    (hu : limit ≤ u) (hp : p.stage? = some stage) : stage.Due limit u grace r.now := by
  cases h with
  | reading =>
    cases hp
    exact ⟨hdue, by omega⟩
  | intercepted taken =>
    rw [hdue] at taken
    exact taken.due (by omega) hp

theorem Stage.Due.elapse (hd : stage.Due limit u grace r.now) (hu : limit ≤ u)
    (hs : Table.get? r.calls id = some stage) (hin : InTime r e) :
    stage.Due limit u grace (r.now + elapsed e) := by
  rcases hin with hzero | hin
  · simpa [hzero] using hd
  · have hlimit := hin id stage
    cases stage with
    | readingBlock op d =>
      obtain ⟨rfl, -⟩ := hd
      exact ⟨rfl, hlimit d hs rfl⟩
    | simulating op block d =>
      obtain ⟨rfl, -⟩ := hd
      exact ⟨rfl, hlimit d hs rfl⟩
    | clearing => exact hd
    | resolving c =>
      obtain ⟨rfl, -⟩ := hd
      exact ⟨rfl, (hlimit c.deadline hs rfl).trans hu⟩
    | asking c =>
      obtain ⟨rfl, -⟩ := hd
      exact ⟨rfl, (hlimit c.deadline hs rfl).trans hu⟩
    | drafting c => exact Candidate.Due.elapse hd hu (hlimit c.deadline hs rfl)
    | resimulating c => exact Candidate.Due.elapse hd hu (hlimit c.deadline hs rfl)
    | expiring => exact hd
    | dropping => exact hd
    | resyncing => exact hd

theorem Stage.Due.now_le (hd : stage.Due limit u grace now) (hu : limit ≤ u)
    (hclears : stage.isClearing = true → now ≤ u) :
    now ≤ u + grace := by
  cases stage with
  | readingBlock => exact hd.2.trans (hu.trans (Nat.le_add_right u grace))
  | simulating => exact hd.2.trans (hu.trans (Nat.le_add_right u grace))
  | clearing => exact (hclears rfl).trans (Nat.le_add_right u grace)
  | resolving => exact hd.2.trans (Nat.le_add_right u grace)
  | asking => exact hd.2.trans (Nat.le_add_right u grace)
  | drafting => exact Candidate.Due.now_le hd
  | resimulating => exact Candidate.Due.now_le hd
  | expiring => exact hd.elim
  | dropping => exact hd.elim
  | resyncing => exact hd.elim

theorem step_due (hu : limit ≤ u) (hgrace : r.config.fallbackGraceMs.toNat = grace)
    (hin : InTime r e) (hclears : ClearsBy u id r)
    (hd : ∀ stage, Table.get? r.calls id = some stage → stage.Due limit u grace r.now)
    (hs : Table.get? (r.step e).1.calls id = some stage) :
    stage.Due limit u grace (r.step e).1.now := by
  obtain ⟨before, hbefore, hline⟩ := hclears
  rw [step_now]
  by_cases ha : r.addressee? e = some id
  · by_cases hkept : e = .abandon id
    · subst hkept
      simp [step, hbefore, Table.get?_erase] at hs
    · obtain ⟨p, hp, hcalls, -⟩ := step_onward ha hbefore hkept
      have hzero : elapsed e = 0 := by
        cases e with
        | tick ms => cases ha
        | _ => rfl
      rw [hzero, Nat.add_zero]
      exact hp.due hu hgrace (hd before hbefore) hline (hcalls.symm.trans hs)
  · rw [step_calls_of_ne ha] at hs
    exact (hd stage hs).elapse hu hs hin

variable {config : Config} {signer : Signer} {es mid : List Event} {job : Job}

theorem start_due (grace : Nat) (hjob : job.isRequest = true)
    (hunused : Table.get? r.calls id = none)
    (hu : r.now + r.config.requestTimeoutMs.toNat ≤ u)
    (hs : Table.get? (r.step (.start id job)).1.calls id = some stage) :
    stage.Due (r.now + r.config.requestTimeoutMs.toNat) u grace (r.step (.start id job)).1.now := by
  have hg := begin_request_goes hjob r id
  have hcontains := Table.contains_eq_false_iff.mpr hunused
  simp only [step, hcontains, Bool.false_eq_true, if_false] at hs ⊢
  rw [get?_settle, if_pos rfl] at hs
  rw [settle_now, hg.now]
  exact hg.course.due rfl hu hs

/-- A call that was started on a request is due for as long as it is in flight. -/
theorem run_due (hjob : job.isRequest = true)
    (hunused : Table.get? ((idle config signer).after es).calls id = none)
    (hu : ((idle config signer).after es).now + config.requestTimeoutMs.toNat ≤ u)
    (hok : Throughout (fun r e => InTime r e ∧ ClearsBy u id r)
      ((idle config signer).after (es ++ [.start id job])) mid) :
    ∀ stage, Table.get? ((idle config signer).after (es ++ [.start id job] ++ mid)).calls id =
        some stage →
      stage.Due (((idle config signer).after es).now + config.requestTimeoutMs.toNat) u
        config.fallbackGraceMs.toNat
        ((idle config signer).after (es ++ [.start id job] ++ mid)).now := by
  have hconfig := fun es => (run_backed config signer es).1
  induction mid using List.reverseRecOn with
  | nil =>
    intro stage hs
    rw [List.append_nil, after_concat] at hs ⊢
    have hu' : ((idle config signer).after es).now +
        ((idle config signer).after es).config.requestTimeoutMs.toNat ≤ u := by
      rwa [hconfig es]
    have hd := start_due config.fallbackGraceMs.toNat hjob hunused hu' hs
    rwa [hconfig es] at hd
  | append_singleton mid e ih =>
    intro stage hs
    obtain ⟨hmid, hin, hclears⟩ := throughout_concat.mp hok
    rw [← after_append] at hin hclears
    rw [← List.append_assoc, after_concat] at hs ⊢
    exact step_due hu (by rw [hconfig]) hin hclears (ih hmid) hs

/-- A call on a request is in flight no longer than to the end of its timeout and of the grace
period after it, and ends with a pair without a fallback within its timeout: apart from the time for
which it stands in line for expired pairs beyond its deadline, at most until `u`. -/
theorem request_ends_in_time (request : job.isRequest = true)
    (unused : Table.get? ((idle config signer).after es).calls id = none)
    (late : ((idle config signer).after es).now + config.requestTimeoutMs.toNat ≤ u)
    (intime : Throughout (fun r e => InTime r e ∧ ClearsBy u id r)
      ((idle config signer).after (es ++ [.start id job])) (mid ++ [e])) :
    ((idle config signer).after (es ++ [.start id job] ++ mid)).now ≤
        u + config.fallbackGraceMs.toNat ∧
      ∀ pair fee l,
        ((idle config signer).after (es ++ [.start id job] ++ mid)).addressee? e = some id →
        (((idle config signer).after (es ++ [.start id job] ++ mid)).step e).2 =
          some (.paired pair fee l) →
        pair.fallback = none →
        ((idle config signer).after (es ++ [.start id job] ++ mid)).now ≤ u := by
  obtain ⟨hmid, -, stage, hs, hclears⟩ := throughout_concat.mp intime
  rw [← after_append] at hs hclears
  have hdue := run_due request unused late hmid stage hs
  refine ⟨hdue.now_le late hclears, ?_⟩
  intro pair fee l ha hresult hnone
  obtain ⟨p, hp, -, hp'⟩ := step_onward ha hs (ne_abandon_of_result hresult id)
  obtain rfl := Progress.result?_eq_some.mp (hp'.symm.trans hresult)
  obtain ⟨c, answer, prepared, rfl, -, hfall⟩ := hp.of_paired
  have hc : c.Due answer _ u _ _ := hdue
  unfold Candidate.Due at hc
  rw [← hfall, hnone] at hc
  exact hc.2

theorem inTime_tick {ms : Nat}
    (h : ∀ entry ∈ r.calls, ∀ d, entry.2.deadline? = some d → r.now + ms ≤ d) :
    InTime r (.tick ms) :=
  .inr fun _ _ d hs hd => h _ (Table.mem_of_get? hs) d hd

end

namespace Sample

/-- A call for the second request holds the lane when the pair of the first one expires. -/
def crowded : List Event :=
  first.served "a" 0 ++ .tick 115000 :: second.asked "b" ++ [.tick 5000]

def thirdJob : Job := .processSimulated rival.op rival.outcome

/-- The third call has its turn in the lane when the second pair is finished. -/
def clearing : List Event := [.tick 2000, .clean "b", .clean "b", .turn "x"]

/-- The time by which a call is due that starts when the first pair expires. -/
def limit : Nat := 120000 + config.requestTimeoutMs.toNat

def secondCandidate : Candidate := second.candidate (115000 + config.requestTimeoutMs.toNat)

/-- The third call stands in line behind the second one, which has the given write simulated. -/
def inLine (p : Pair) (write : Operation) : Relay where
  writer := {
    config := config, signer := signer, reserved := [firstKey, secondKey],
    lane := ⟨some 1, ["b", "x"]⟩ }
  now := 120000
  active := [(firstKey, .completed), (secondKey, .populating)]
  pending := [(firstKey, ⟨p, 0⟩)]
  calls := [("b", .drafting secondCandidate ⟨second.response, none⟩ (.simulating write)),
    ("x", .clearing 120000 rival.op rival.request rival.outcome.block limit)]

theorem after_crowded : ∃ (p : Pair) (write : Operation),
    CacheWriter.build { config := config, signer := signer } second.op second.key
      second.response 1 = .ok write ∧
    (idle config signer).after crowded =
      { inLine p write with
        writer := { (inLine p write).writer with lane := ⟨some 1, ["b"]⟩ }
        calls := [("b", .drafting secondCandidate ⟨second.response, none⟩
          (.simulating write))] } := by
  obtain ⟨p, -, hfirst⟩ := first_aged 115000
  have hkey : second.key ≠ firstKey := by decide
  have hwelcome : second.Welcome (holding p 115000) "b" := welcome_beside hkey rfl rfl rfl rfl
  obtain ⟨write, hb⟩ := CacheWriter.exists_build
    (w := { config := config, signer := signer }) (fun _ => ⟨_, rfl⟩) second.op
    second.key second.response 1
  refine ⟨p, write, hb, ?_⟩
  rw [crowded, after_concat, List.append_cons, after_append, hfirst,
    Answerable.after_asked_next hwelcome rfl hb, step_tick rfl (by rfl : 115000 + 5000 = 120000)]
  rfl

/-- The third call gets the lane before it is due, and waits for the registry from then on. -/
theorem inLine_intime {p : Pair} {write : Operation}
    (hb : CacheWriter.build { config := config, signer := signer } second.op
      second.key second.response 1 = .ok write) :
    (∃ c, Table.get? ((inLine p write).after clearing).calls "x" = some (.resolving c)) ∧
      Throughout (fun r e => InTime r e ∧ ClearsBy limit "x" r) (inLine p write)
        (clearing ++ [.tick 8000] ++ [.timeout "x"]) := by
  let r₁ := inLine p write
  let r₂ : Relay := { r₁ with now := 122000 }
  have h₂ : r₁.step (.tick 2000) = (r₂, none) :=
    step_tick rfl (by rfl : 120000 + 2000 = 122000)
  have hs₂ : Table.get? r₂.calls "b" =
      some (.drafting secondCandidate ⟨second.response, none⟩ (.simulating write)) := rfl
  have h₃ := write_reply hs₂ (fun _ => ⟨_, _, rfl⟩)
  have hsender : second.op.sender ≠ config.systemAccount := by decide
  have hfees : FeesFit config second.op := by decide
  obtain ⟨-, q, fee, l, -, hpaired⟩ :=
    after_simulations hs₂ (fun _ => ⟨_, _, rfl⟩) hb hsender hfees
  let r₄ : Relay :=
    { r₂ with
      writer := r₂.writer.keep "b" ⟨write, .clean⟩
      active := [(firstKey, .completed), (secondKey, .completed)]
      pending := Table.insert r₂.pending secondKey ⟨q, r₂.now⟩
      calls := [("x", .clearing 120000 rival.op rival.request rival.outcome.block limit)] }
  have h₄ : (r₂.step (.clean "b")).1.step (.clean "b") = (r₄, some (.paired q fee l)) := hpaired
  rw [h₃] at h₄
  have hs₄ : Table.get? r₄.calls "x" =
      some (.clearing 120000 rival.op rival.request rival.outcome.block limit) := rfl
  have hfree : Table.get? [(firstKey, RequestState.completed), (secondKey, .completed)] rivalKey =
      none := by decide
  let c : Candidate := ⟨rival.op, rival.request, rival.outcome.block, limit,
    ⟨rivalKey, [.detected], .resolving⟩⟩
  let r₅ : Relay :=
    { (r₄.clear "x" 120000).1 with
      active := Table.insert (r₄.clear "x" 120000).1.active rivalKey .resolving
      calls := [("x", .resolving c)] }
  have h₅ : r₄.step (.turn "x") = (r₅, none) := turn_clearing hs₄ rfl hfree
  have hnow₅ : r₅.now = 122000 := (clear_same r₄ "x" 120000).1
  have h₆ : r₅.step (.tick 8000) = ({ r₅ with now := 130000 }, none) :=
    step_tick hnow₅ (by rfl : 122000 + 8000 = 130000)
  have hlimit : 130000 ≤ limit := by decide
  have hclears : ∀ {r stage}, Table.get? r.calls "x" = some stage → r.now ≤ 130000 →
      ClearsBy limit "x" r :=
    fun hs hnow => ⟨_, hs, fun _ => hnow.trans hlimit⟩
  have hin₁ : InTime r₁ (.tick 2000) := by
    refine inTime_tick ?_
    rintro entry he d hd
    rcases List.mem_cons.mp he with rfl | he
    · cases hd
      show 120000 + 2000 ≤ 115000 + config.requestTimeoutMs.toNat
      decide
    · rw [List.mem_singleton.mp he] at hd
      cases hd
  have hin₅ : InTime r₅ (.tick 8000) := by
    refine inTime_tick ?_
    rintro entry he d hd
    rw [List.mem_singleton.mp he] at hd
    cases hd
    rw [hnow₅]
    exact hlimit
  constructor
  · refine ⟨c, ?_⟩
    rw [show inLine p write = r₁ from rfl, clearing, after_cons, h₂, after_cons, h₃, after_cons,
      h₄, after_cons, h₅]
    rfl
  · exact .cons ⟨hin₁, hclears rfl (by decide : 120000 ≤ 130000)⟩ h₂
      (.cons ⟨.inl rfl, hclears rfl (by decide : 122000 ≤ 130000)⟩ h₃
        (.cons ⟨.inl rfl, hclears rfl (by decide : 122000 ≤ 130000)⟩ h₄
          (.cons ⟨.inl rfl, hclears rfl (by decide : 122000 ≤ 130000)⟩ h₅
            (.cons ⟨hin₅, hclears rfl (hnow₅.trans_le (by decide))⟩ h₆
              ⟨⟨.inl rfl, hclears rfl le_rfl⟩, trivial⟩))))

end Sample

/-- A call that stands in line for an expired pair, behind one that finishes its own pair, gets the
lane within its timeout and then waits for the registry until its time is up. -/
theorem sample_ends_in_time :
    (∃ op request block d, Table.get? ((idle Sample.config Sample.signer).after
        (Sample.crowded ++ [.start "x" Sample.thirdJob])).calls "x" =
          some (.clearing 120000 op request block d)) ∧
      (∃ c, Table.get? ((idle Sample.config Sample.signer).after
        (Sample.crowded ++ [.start "x" Sample.thirdJob] ++ Sample.clearing)).calls "x" =
          some (.resolving c)) ∧
      ((idle Sample.config Sample.signer).after (Sample.crowded ++ [.start "x" Sample.thirdJob] ++
        (Sample.clearing ++ [.tick 8000]))).now ≤
          Sample.limit + Sample.config.fallbackGraceMs.toNat := by
  obtain ⟨p, write, hb, hr⟩ := Sample.after_crowded
  have hjoined : (idle Sample.config Sample.signer).after
      (Sample.crowded ++ [.start "x" Sample.thirdJob]) = Sample.inLine p write := by
    rw [after_concat, hr, Sample.thirdJob, start_clearing rfl rfl rfl Sample.rival.detected]
    rfl
  have hunused : Table.get? ((idle Sample.config Sample.signer).after Sample.crowded).calls "x" =
      none := by
    rw [hr]
    rfl
  have hlate : ((idle Sample.config Sample.signer).after Sample.crowded).now +
      Sample.config.requestTimeoutMs.toNat ≤ Sample.limit := by
    rw [hr]
    exact le_rfl
  obtain ⟨hout, intime⟩ := Sample.inLine_intime (p := p) hb
  rw [← hjoined] at intime
  refine ⟨⟨Sample.rival.op, Sample.rival.request, Sample.rival.outcome.block, Sample.limit, ?_⟩,
    ?_, (request_ends_in_time (rfl : Sample.thirdJob.isRequest = true) hunused hlate intime).1⟩
  · rw [hjoined]
    rfl
  · rwa [after_append, hjoined]

end ComputeRelay
