import ComputeRelay.Proofs.Footprints
import ComputeRelay.Proofs.WorkingSets

/-! Rejected calls leave nothing behind. None of the steps of such a call has touched anything but
the call's own request, apart from expired pairs, and what is its own goes with the last step. -/

namespace ComputeRelay

open Relay

/-- One stage comes after another of the same call: the work stays of the same kind, and on the same
request once there is one. -/
structure Stage.Follows (stage stage' : Stage) : Prop where
  kind : stage'.isRequest = stage.isRequest
  request : ∀ c, stage.candidate? = some c →
    ∃ c', stage'.candidate? = some c' ∧ c'.requestId = c.requestId

variable {r : Relay} {id : CallId} {e : Event} {stage stage' : Stage} {p : Progress}

theorem Stage.Follows.refl (stage : Stage) : stage.Follows stage :=
  ⟨rfl, fun c hc => ⟨c, hc, rfl⟩⟩

theorem Stage.Follows.trans {stage'' : Stage} (h : stage.Follows stage')
    (h' : stage'.Follows stage'') : stage.Follows stage'' := by
  refine ⟨h'.kind.trans h.kind, ?_⟩
  intro c hc
  obtain ⟨c', hc', hid'⟩ := h.request c hc
  obtain ⟨c'', hc'', hid''⟩ := h'.request c' hc'
  exact ⟨c'', hc'', hid''.trans hid'⟩

theorem TakenOn.isRequest {deadline : Nat} (h : TakenOn deadline p) (hp : p.stage? = some stage) :
    stage.isRequest = true := by
  cases h with
  | rejected => exact nomatch hp
  | resolving =>
    cases hp
    rfl

theorem Intercepted.isRequest {now deadline : Nat} (h : Intercepted now deadline p)
    (hp : p.stage? = some stage) : stage.isRequest = true := by
  cases h with
  | passthrough => exact nomatch hp
  | clearing =>
    cases hp
    rfl
  | takenOn taken => exact taken.isRequest hp

theorem Drafted.follows {c : Candidate} {answer : Answer} (h : Drafted c answer p)
    (hp : p.stage? = some stage) :
    stage.isRequest = true ∧ ∃ c', stage.candidate? = some c' ∧ c'.requestId = c.requestId := by
  cases h with
  | rejected => exact nomatch hp
  | drafting =>
    cases hp
    exact ⟨rfl, c, rfl, rfl⟩
  | resimulating c' prepared same due =>
    cases hp
    exact ⟨rfl, c', rfl, same⟩

theorem candidate?_eq_none_of_upkeep (h : stage.isRequest = false) : stage.candidate? = none := by
  cases stage with
  | expiring => rfl
  | dropping => rfl
  | resyncing => rfl
  | _ => exact nomatch h

theorem Onward.follows (h : Onward r stage p) (hp : p.stage? = some stage') :
    stage.Follows stage' := by
  cases h with
  | rejected => exact nomatch hp
  | unmoved =>
    cases hp
    exact .refl _
  | block =>
    cases hp
    exact ⟨rfl, nofun⟩
  | simulated taken => exact ⟨taken.isRequest hp, nofun⟩
  | cleared taken => exact ⟨taken.isRequest hp, nofun⟩
  | resolved registration same due =>
    cases hp
    exact ⟨rfl, by rintro c ⟨⟩; exact ⟨_, rfl, same⟩⟩
  | answered given same due drafted =>
    obtain ⟨hkind, c', hc', hid⟩ := drafted.follows hp
    exact ⟨hkind, by rintro c ⟨⟩; exact ⟨c', hc', hid.trans same⟩⟩
  | stoodIn missing same due drafted =>
    obtain ⟨hkind, c', hc', hid⟩ := drafted.follows hp
    exact ⟨hkind, by rintro c ⟨⟩; exact ⟨c', hc', hid.trans same⟩⟩
  | drafted drafted =>
    obtain ⟨hkind, c', hc', hid⟩ := drafted.follows hp
    exact ⟨hkind, by rintro c ⟨⟩; exact ⟨c', hc', hid⟩⟩
  | paired => exact nomatch hp
  | upkeep before after =>
    cases p with
    | finished => exact nomatch hp
    | waiting =>
      cases hp
      have hkind : stage'.isRequest = false := by simpa [Progress.isUpkeep] using after
      refine ⟨hkind.trans before.symm, ?_⟩
      intro c hc
      exact nomatch (candidate?_eq_none_of_upkeep before).symm.trans hc

/-- A call that does not end with a release of pairs, and waits for no such end, has a request to
work on. -/
theorem Onward.isRequest (h : Onward r stage p) (hp : p.isUpkeep = false) :
    stage.isRequest = true := by
  cases h with
  | rejected request => exact request
  | unmoved => simpa [Progress.isUpkeep] using hp
  | upkeep before after => exact nomatch hp.symm.trans after
  | _ => rfl

theorem TakenOn.since_none {deadline : Nat} (h : TakenOn deadline p)
    (hp : p.stage? = some stage) : stage.since? = none := by
  cases h with
  | rejected => exact nomatch hp
  | resolving =>
    cases hp
    rfl

theorem Intercepted.since_eq {now deadline since : Nat} (h : Intercepted now deadline p)
    (hp : p.stage? = some stage) (hs : stage.since? = some since) : since = now := by
  cases h with
  | passthrough => exact nomatch hp
  | clearing =>
    cases hp
    exact (Option.some.inj hs).symm
  | takenOn taken => exact nomatch (taken.since_none hp).symm.trans hs

theorem Drafted.since_none {c : Candidate} {answer : Answer} (h : Drafted c answer p)
    (hp : p.stage? = some stage) : stage.since? = none := by
  cases h with
  | rejected => exact nomatch hp
  | drafting =>
    cases hp
    rfl
  | resimulating =>
    cases hp
    rfl

theorem since_none_of_upkeep (h : p.isUpkeep = true) (hp : p.stage? = some stage) :
    stage.since? = none := by
  cases p with
  | finished => exact nomatch hp
  | waiting =>
    cases hp
    cases stage <;> first | rfl | exact nomatch h

theorem Onward.since_eq {since : Nat} (h : Onward r stage p) (hp : p.stage? = some stage')
    (hs : stage'.since? = some since) : stage.since? = some since ∨ since = r.now := by
  cases h with
  | rejected => exact nomatch hp
  | unmoved =>
    cases hp
    exact .inl hs
  | block =>
    cases hp
    exact nomatch hs
  | simulated taken => exact .inr (taken.since_eq hp hs)
  | cleared taken => exact nomatch (taken.since_none hp).symm.trans hs
  | resolved =>
    cases hp
    exact nomatch hs
  | answered given same due drafted => exact nomatch (drafted.since_none hp).symm.trans hs
  | stoodIn missing same due drafted => exact nomatch (drafted.since_none hp).symm.trans hs
  | drafted drafted => exact nomatch (drafted.since_none hp).symm.trans hs
  | paired => exact nomatch hp
  | upkeep before after => exact nomatch (since_none_of_upkeep after hp).symm.trans hs

theorem begin_since {job : Job} {since : Nat} (hp : (r.begin id job).2.stage? = some stage)
    (hs : stage.since? = some since) : since = r.now := by
  cases hjob : job.isRequest with
  | true =>
    have hbegun := (begin_request_goes hjob r id).course
    generalize (r.begin id job).2 = p at hp hbegun
    cases hbegun with
    | reading =>
      cases hp
      exact nomatch hs
    | intercepted taken => exact taken.since_eq hp hs
  | false =>
    exact nomatch (since_none_of_upkeep (begin_upkeep_goes hjob r id).course hp).symm.trans hs

variable {config : Config} {signer : Signer} {es : List Event}

/-- A call in line for expired pairs counts those that had expired at a time before. -/
theorem run_since_le (config : Config) (signer : Signer) (es : List Event) :
    ∀ id stage since, Table.get? ((idle config signer).after es).calls id = some stage →
      stage.since? = some since → since ≤ ((idle config signer).after es).now := by
  refine run_induction (P := fun _ r => ∀ id stage since, Table.get? r.calls id = some stage →
    stage.since? = some since → since ≤ r.now) ?_ ?_ (throughout_trivial _ es)
  · intro id stage since hs
    simp [idle, Table.get?] at hs
  · intro es e hsince _ id stage since hs hstage
    rw [step_now]
    refine Nat.le_add_right_of_le ?_
    generalize (idle config signer).after es = r at hsince hs ⊢
    by_cases ha : r.addressee? e = some id
    · have h := step_addressed ha
      generalize r.step e = out at h hs
      cases h with
      | started job unused =>
        rw [get?_settle, if_pos rfl] at hs
        exact Nat.le_of_eq (begin_since hs hstage)
      | resumed found resumed =>
        rw [get?_settle, if_pos rfl] at hs
        rcases resumed.goes.course.since_eq hs hstage with hbefore | hnow
        · exact hsince id _ since found hbefore
        · exact Nat.le_of_eq hnow
      | abandoned => simp [Table.get?_erase] at hs
    · rw [step_calls_of_ne ha] at hs
      exact hsince id stage since hs hstage

/-- What is known of every relay that a run has led to. -/
structure Reachable (r : Relay) : Prop where
  reads : ReadsUnknown r.shared r.holdOf
  since : ∀ id stage since, Table.get? r.calls id = some stage → stage.since? = some since →
    since ≤ r.now

theorem run_reachable (config : Config) (signer : Signer) (es : List Event) :
    Reachable ((idle config signer).after es) :=
  ⟨run_readsUnknown config signer es, run_since_le config signer es⟩

/-- A step that ends no upkeep of the lane and finishes no pair touches only what is the request's
own, and, while there is no request, expired pairs. -/
theorem Addressed.touches {out : Relay × Option Result} (hr : Reachable r)
    (h : Addressed r id e out) (hkept : e ≠ .abandon id) :
    ∃ step, out = settle id step ∧ (step.2.isUpkeep = false → step.2.isPaired = false →
      ∃ dropped, TouchesOnly (((r.candidate? id).or step.2.candidate?).map (·.requestId)) dropped
          (r.teaches? e) r.shared step.1.shared ∧
        ∀ key ∈ dropped, r.Outlived key ∧ r.candidate? id = none) := by
  cases h with
  | started job unused =>
    refine ⟨_, rfl, fun hupkeep _ => ?_⟩
    have hnone : r.candidate? id = none := by simp [Relay.candidate?, unused]
    have hjob : job.isRequest = true := by
      by_contra hjob
      have hc := (begin_upkeep_goes (by simpa using hjob) r id).course
      cases hupkeep.symm.trans hc
    obtain ⟨dropped, ht, hdropped⟩ := begin_opens hjob r id
    rw [hnone, Option.none_or]
    exact ⟨dropped, ht.of_untold _, fun key hin => ⟨hdropped key hin, rfl⟩⟩
  | @resumed stage _ step found resumed =>
    refine ⟨_, rfl, fun hupkeep hpaired => ?_⟩
    have hf := resumed.footprint (resumed.goes.course.isRequest hupkeep) found hr.reads
      (fun since hs => hr.since id stage since found hs)
    have hstage : r.candidate? id = stage.candidate? := by simp [Relay.candidate?, found]
    rw [hstage]
    cases hc : stage.candidate? with
    | none =>
      rw [hc] at hf
      obtain ⟨dropped, ht, hdropped⟩ := hf
      rw [Option.none_or]
      exact ⟨dropped, ht.of_untold _, fun key hin => ⟨hdropped key hin, rfl⟩⟩
    | some c =>
      rw [hc] at hf
      exact ⟨[], hf.touches hpaired, by simp⟩
  | abandoned => exact absurd rfl hkept

def Relay.InFlight (r : Relay) (id : CallId) : Prop := Table.contains r.calls id = true

theorem step_follows (hs : Table.get? r.calls id = some stage)
    (hs' : Table.get? (r.step e).1.calls id = some stage') : stage.Follows stage' := by
  by_cases ha : r.addressee? e = some id
  · have hkept : e ≠ .abandon id := by
      rintro rfl
      simp [step, hs, Table.get?_erase] at hs'
    obtain ⟨p, hp, hcalls, -⟩ := step_onward ha hs hkept
    exact hp.follows (hcalls.symm.trans hs')
  · rw [step_calls_of_ne ha, hs] at hs'
    obtain rfl := Option.some.inj hs'
    exact .refl _

theorem inFlight_of_throughout (hin : Throughout (fun r _ => r.InFlight id) r es)
    (hs : Table.get? (r.after es).calls id = some stage) :
    ∃ stage, Table.get? r.calls id = some stage := by
  cases es with
  | nil => exact ⟨stage, hs⟩
  | cons e es => exact Option.isSome_iff_exists.mp hin.1

theorem run_follows (hs : Table.get? r.calls id = some stage)
    (hin : Throughout (fun r _ => r.InFlight id) r es)
    (hs' : Table.get? (r.after es).calls id = some stage') : stage.Follows stage' := by
  induction es generalizing r stage with
  | nil =>
    obtain rfl := Option.some.inj (hs.symm.trans hs')
    exact .refl _
  | cons e es ih =>
    obtain ⟨next, hnext⟩ := inFlight_of_throughout hin.2 hs'
    exact (step_follows hs hnext).trans (ih hnext hin.2 hs')

/-- The request that a call has before or after a step is its request after the step. -/
theorem step_request {c : Candidate} (hs' : Table.get? (r.step e).1.calls id = some stage')
    (hc : (r.candidate? id).or stage'.candidate? = some c) :
    ∃ c', stage'.candidate? = some c' ∧ c'.requestId = c.requestId := by
  cases hbefore : Table.get? r.calls id with
  | none =>
    simp only [Relay.candidate?, hbefore, Option.bind_none, Option.none_or] at hc
    exact ⟨c, hc, rfl⟩
  | some before =>
    simp only [Relay.candidate?, hbefore, Option.bind_some] at hc
    cases hb : before.candidate? with
    | none =>
      rw [hb, Option.none_or] at hc
      exact ⟨c, hc, rfl⟩
    | some cb =>
      rw [hb, Option.some_or] at hc
      obtain rfl := Option.some.inj hc
      exact (step_follows hbefore hs').request _ hb

theorem TouchesOnly.of_same {own : Option Candidate} {key? : Option Hash}
    {dropped : List Hash} {told : Option Word} {s s' : Shared}
    (h : TouchesOnly (own.map (·.requestId)) dropped told s s')
    (hsame : ∀ c, own = some c → key? = some c.requestId) :
    TouchesOnly key? dropped told s s' := by
  cases own with
  | none => exact h.of_none key?
  | some c =>
    rw [hsame c rfl]
    exact h

theorem earlier_touches (hr : Reachable r) (ha : r.addressee? e = some id)
    (hin : Throughout (fun r _ => r.InFlight id) (r.step e).1 es)
    (hs : Table.get? ((r.step e).1.after es).calls id = some stage)
    (hreq : stage.isRequest = true) :
    ∃ dropped, TouchesOnly (stage.candidate?.map (·.requestId)) dropped (r.teaches? e) r.shared
        (r.step e).1.shared ∧
      ∀ key ∈ dropped, r.Outlived key ∧ r.candidate? id = none := by
  obtain ⟨next, hnext⟩ := inFlight_of_throughout hin hs
  have hfollows := run_follows hnext hin hs
  have hkept : e ≠ .abandon id := by
    rintro rfl
    have h := step_addressed ha
    generalize r.step (.abandon id) = out at h hnext
    cases h with
    | resumed found resumed => cases resumed
    | abandoned => simp [Table.get?_erase] at hnext
  obtain ⟨⟨r', p⟩, hstep, htouches⟩ := (step_addressed ha).touches hr hkept
  obtain rfl : p = .waiting next := by
    rw [hstep, get?_settle, if_pos rfl] at hnext
    cases p with
    | waiting => exact congrArg Progress.waiting (Option.some.inj hnext)
    | finished => cases hnext
  have hupkeep : (Progress.waiting next).isUpkeep = false := by
    simp [Progress.isUpkeep, ← hfollows.kind, hreq]
  obtain ⟨dropped, ht, hdropped⟩ := htouches hupkeep rfl
  refine ⟨dropped, ?_, hdropped⟩
  rw [hstep, settle_shared]
  refine ht.of_same ?_
  intro c hc
  obtain ⟨c', hc', hid⟩ := step_request hnext hc
  obtain ⟨c'', hc'', hid'⟩ := hfollows.request c' hc'
  rw [hc'', Option.map_some, hid', hid]

theorem last_touches {err : Rejection} (hr : Reachable r) (ha : r.addressee? e = some id)
    (hresult : (r.step e).2 = some (.rejected err)) :
    ∃ dropped, TouchesOnly ((r.candidate? id).map (·.requestId)) dropped (r.teaches? e) r.shared
        (r.step e).1.shared ∧
      ∀ key ∈ dropped, r.Outlived key ∧ r.candidate? id = none := by
  have hkept := ne_abandon_of_result hresult id
  obtain ⟨⟨r', p⟩, hstep, htouches⟩ := (step_addressed ha).touches hr hkept
  obtain rfl : p = rejected err := by
    rw [hstep] at hresult
    exact eq_finished_of_settle hresult
  obtain ⟨dropped, ht, hdropped⟩ := htouches rfl rfl
  refine ⟨dropped, ?_, hdropped⟩
  rw [hstep, settle_shared]
  refine ht.of_same ?_
  intro c hc
  rw [show (rejected err).candidate? = none from rfl, Option.or_none] at hc
  rw [hc, Option.map_some]

theorem rejected_stage {err : Rejection} (hr : Reachable r) (ha : r.addressee? e = some id)
    (hs : Table.get? r.calls id = some stage)
    (hresult : (r.step e).2 = some (.rejected err)) :
    stage.isRequest = true ∧
      ∀ c, stage.candidate? = some c → Table.get? (r.step e).1.active c.requestId = none := by
  have hkept := ne_abandon_of_result hresult id
  obtain ⟨⟨r', p⟩, hresumed, hstep⟩ := step_resumed ha hs hkept
  obtain rfl : p = rejected err := by
    rw [hstep] at hresult
    exact eq_finished_of_settle hresult
  have hreq : stage.isRequest = true := hresumed.goes.course.isRequest rfl
  refine ⟨hreq, ?_⟩
  intro c hc
  have hf := hresumed.footprint hreq hs hr.reads fun since => hr.since id stage since hs
  rw [hc] at hf
  have hactive : (r.step e).1.active = r'.active := by
    rw [hstep]
    exact congrArg Shared.active (settle_shared id (r', rejected err))
  rw [hactive]
  exact hf.closes err rfl

theorem ended_of_result {result : Result} (ha : r.addressee? e = some id)
    (hresult : (r.step e).2 = some result) : Table.get? (r.step e).1.calls id = none := by
  have h := step_addressed ha
  generalize r.step e = out at h hresult
  cases h with
  | started =>
    rw [get?_settle, if_pos rfl, eq_finished_of_settle hresult]
    rfl
  | resumed =>
    rw [get?_settle, if_pos rfl, eq_finished_of_settle hresult]
    rfl
  | abandoned => cases hresult

/-- The request of a rejected call was its own, and is in no working set any more. -/
theorem rejected_request {err : Rejection} {c : Candidate}
    (spares : Throughout SparesInFlight (idle config signer) (es ++ [e]))
    (own : ((idle config signer).after es).addressee? e = some id)
    (result : (((idle config signer).after es).step e).2 = some (.rejected err))
    (hc : ((idle config signer).after es).candidate? id = some c) :
    c.requestId ∉ Table.keys ((idle config signer).after (es ++ [e])).active ∧
      c.requestId ∉ Table.keys ((idle config signer).after (es ++ [e])).pending ∧
      c.requestId ∉ ((idle config signer).after (es ++ [e])).writer.reserved := by
  have hreach := run_reachable config signer es
  have hended := ended_of_result own result
  rw [← after_concat] at hended
  obtain ⟨stage, hs, hstage⟩ := Option.bind_eq_some_iff.mp hc
  have hbefore := run_setsAgree (throughout_concat.mp spares).1
  have hrow := (rejected_stage hreach own hs result).2 c hstage
  rw [← after_concat] at hrow
  have hpending : c.requestId ∉ Table.keys ((idle config signer).after (es ++ [e])).pending := by
    obtain ⟨dropped, ht, hdropped⟩ := last_touches hreach own result
    have hkept : c.requestId ∉ dropped := by
      intro hin
      cases hc.symm.trans (hdropped _ hin).2
    have hsame := ht.pairs c.requestId hkept
    rw [← after_concat] at hsame
    rw [Table.mem_keys_iff]
    rintro ⟨entry, hentry⟩
    exact hbefore.not_pending id c hc (Table.mem_keys_iff.mpr ⟨entry, hsame.symm.trans hentry⟩)
  refine ⟨?_, hpending, ?_⟩
  · rw [Table.mem_keys_iff]
    rintro ⟨state, hstate⟩
    cases hrow.symm.trans hstate
  · rw [(run_setsAgree spares).reserved_iff]
    rintro (hin | ⟨k, c', hc', -, hid⟩)
    · exact hpending hin
    · have hne : k ≠ id := by
        rintro rfl
        simp [Relay.candidate?, hended] at hc'
      have hother : ((idle config signer).after es).candidate? k = some c' := by
        rw [Relay.candidate?, ← run_others own hne]
        exact hc'
      exact hne (hbefore.one_call k id c' c hother hc hid)

/-- Each step of a rejected call, from the one that started it to the last, has touched only what is
its request's own, and, while there was no request, expired pairs. -/
theorem rejected_touches {err : Rejection} {es₁ es₂ : List Event} {e₁ : Event}
    (own : ((idle config signer).after es).addressee? e = some id)
    (result : (((idle config signer).after es).step e).2 = some (.rejected err))
    (hsplit : es ++ [e] = es₁ ++ e₁ :: es₂)
    (ha : ((idle config signer).after es₁).addressee? e₁ = some id)
    (hin : Throughout (fun r _ => r.InFlight id) ((idle config signer).after (es₁ ++ [e₁])) es₂) :
    ∃ dropped, TouchesOnly ((((idle config signer).after es).candidate? id).map (·.requestId))
        dropped (((idle config signer).after es₁).teaches? e₁)
        ((idle config signer).after es₁).shared
        ((idle config signer).after (es₁ ++ [e₁])).shared ∧
      ∀ key ∈ dropped, ((idle config signer).after es₁).Outlived key ∧
        ((idle config signer).after es₁).candidate? id = none := by
  have hreach := run_reachable config signer es
  rw [after_concat] at hin ⊢
  rcases List.eq_nil_or_concat es₂ with rfl | ⟨es₂', e', rfl⟩
  · obtain ⟨rfl, rfl⟩ : es = es₁ ∧ e = e₁ := by simpa using List.append_inj' hsplit rfl
    exact last_touches hreach own result
  · rw [List.concat_eq_append] at hsplit hin
    obtain ⟨rfl, rfl⟩ : es = es₁ ++ e₁ :: es₂' ∧ e = e' := by
      rw [← List.cons_append, ← List.append_assoc] at hsplit
      simpa using List.append_inj' hsplit rfl
    obtain ⟨hin, hlast⟩ := throughout_concat.mp hin
    have hafter : (((idle config signer).after es₁).step e₁).1.after es₂' =
        (idle config signer).after (es₁ ++ e₁ :: es₂') := by
      rw [after_append, after_cons]
    rw [hafter] at hlast
    obtain ⟨stage, hs⟩ := Option.isSome_iff_exists.mp hlast
    have hreq := (rejected_stage hreach own hs result).1
    have ht := earlier_touches (run_reachable config signer es₁) ha hin (hafter ▸ hs) hreq
    simpa [Relay.candidate?, hs] using ht

/-- A rejected call is out of the line, and its request out of all working sets. No step of the call
has touched anything else, apart from pairs that had expired before it had a request; and the lane's
next nonce was put up by none. -/
theorem rejected_leaves_nothing {err : Rejection}
    (spares : Throughout SparesInFlight (idle config signer) (es ++ [e]))
    (own : ((idle config signer).after es).addressee? e = some id)
    (result : (((idle config signer).after es).step e).2 = some (.rejected err)) :
    (Table.get? ((idle config signer).after (es ++ [e])).calls id = none ∧
      id ∉ ((idle config signer).after (es ++ [e])).writer.lane.line) ∧
    (∀ c, ((idle config signer).after es).candidate? id = some c →
      c.requestId ∉ Table.keys ((idle config signer).after (es ++ [e])).active ∧
        c.requestId ∉ Table.keys ((idle config signer).after (es ++ [e])).pending ∧
        c.requestId ∉ ((idle config signer).after (es ++ [e])).writer.reserved) ∧
    ∀ es₁ e₁ es₂, es ++ [e] = es₁ ++ e₁ :: es₂ →
      ((idle config signer).after es₁).addressee? e₁ = some id →
      Throughout (fun r _ => r.InFlight id) ((idle config signer).after (es₁ ++ [e₁])) es₂ →
      ∃ dropped, TouchesOnly ((((idle config signer).after es).candidate? id).map (·.requestId))
          dropped (((idle config signer).after es₁).teaches? e₁)
          ((idle config signer).after es₁).shared
          ((idle config signer).after (es₁ ++ [e₁])).shared ∧
        ∀ key ∈ dropped, ((idle config signer).after es₁).Outlived key ∧
          ((idle config signer).after es₁).candidate? id = none := by
  have hended := ended_of_result own result
  rw [← after_concat] at hended
  refine ⟨⟨hended, ?_⟩, ?_, ?_⟩
  · have hline := (run_inLine config signer (es ++ [e])).mem_iff id
    have hplace : (((idle config signer).after (es ++ [e])).holdOf id).place = .outside := by
      simp [holdOf, hended]
    exact fun hin => hline.mp hin hplace
  · intro c hc
    exact rejected_request spares own result hc
  · intro es₁ e₁ es₂ hsplit ha hin
    exact rejected_touches own result hsplit ha hin

theorem unread_rejected {c : Candidate} {answer : Answer}
    (hs : Table.get? r.calls id = some (.drafting c answer .reading)) (error : LedgerError) :
    (r.step (.reply id (.nonce (.error error)))).2 = some (.rejected (.write (.ledger error))) := by
  simp only [step, hs]
  rw [settle_result]
  rfl

/-- A request whose write is given up since the ledger tells no nonce for it. -/
theorem sample_leaves_nothing :
    Sample.firstKey ∉ Table.keys ((idle Sample.config Sample.signer).after
        (Sample.first.asked "a" ++ [.reply "a" (.nonce (.error (.decode "")))])).active ∧
      Sample.firstKey ∉ ((idle Sample.config Sample.signer).after
        (Sample.first.asked "a" ++
          [.reply "a" (.nonce (.error (.decode "")))])).writer.reserved := by
  have hs : Table.get? ((idle Sample.config Sample.signer).after (Sample.first.asked "a")).calls
      "a" = some (.drafting (Sample.first.candidate (0 + Sample.config.requestTimeoutMs.toNat))
        ⟨Sample.first.response, none⟩ .reading) := by
    rw [Answerable.after_asked (Answerable.welcome_idle Sample.config Sample.signer "a") rfl]
    exact Table.get?_insert _ _ _ _
  have spares : Throughout SparesInFlight (idle Sample.config Sample.signer)
      (Sample.first.asked "a" ++ [.reply "a" (.nonce (.error (.decode "")))]) := by
    simp [Throughout, SparesInFlight, forgets, Answerable.asked]
  have hc : ((idle Sample.config Sample.signer).after (Sample.first.asked "a")).candidate? "a" =
      some (Sample.first.candidate (0 + Sample.config.requestTimeoutMs.toNat)) := by
    simp [Relay.candidate?, hs, Stage.candidate?]
  obtain ⟨hactive, -, hreserved⟩ :=
    (rejected_leaves_nothing spares (addressee_reply hs rfl) (unread_rejected hs _)).2.1 _ hc
  exact ⟨hactive, hreserved⟩

end ComputeRelay
