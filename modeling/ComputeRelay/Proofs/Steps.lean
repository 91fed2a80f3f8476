import ComputeRelay.Proofs.Events
import ComputeRelay.Proofs.Walk

/-! Every step of the relay is a chain of moves of one call, and leaves that call at a stage, or
with a result, that is backed by what the call has heard. Properties that moves keep hold after
every run. -/

namespace ComputeRelay

open Relay

variable {r₀ r : Relay} {e : Event} {id : CallId} {log : List Event} {h : Hold}

theorem takeOn_leads {op : Operation} {request : ComputeRequest} {block : BlockContext}
    (hr : Reached r₀ e id log r {}) (hd : Detected id log op request block) (deadline : Nat) :
    Leads r₀ e id log (r.takeOn op request block deadline) := by
  unfold Relay.takeOn
  simp only
  split
  · exact ⟨hr, trivial⟩
  · rename_i hfree
    have hnew : Table.get? r.active request.requestId = none := by
      simpa [Table.contains_eq_false_iff] using hfree
    rw [enter_eq rfl rfl]
    have hopen : Reached r₀ e id log (r.record request.requestId .detected)
        { row? := some (request.requestId, .detected) } :=
      ⟨hr.config, hr.signer, hr.calls, hr.moves.tail (.enroll rfl hnew)⟩
    exact ⟨hopen.record .resolving rfl, hd, rfl⟩

theorem intercept_leads {op : Operation} {outcome : Simulation} (hr : Reached r₀ e id log r {})
    (hd : ∀ request, detect op outcome = .ok (some request) →
      Detected id log op request outcome.block) (deadline : Nat) :
    Leads r₀ e id log (r.intercept id op outcome deadline) := by
  unfold Relay.intercept
  cases hf : detect op outcome with
  | error err => exact ⟨hr, trivial⟩
  | ok found =>
    cases found with
    | none => exact ⟨hr, trivial⟩
    | some request =>
      simp only
      split
      · split
        · rename_i hfirst
          exact takeOn_leads ((hr.join rfl).clear hfirst _) (hd request hf) _
        · exact ⟨hr.join rfl, hd request hf⟩
      · exact takeOn_leads hr (hd request hf) _

theorem dropPairs_leads {requestIds : List Hash} (hr : Reached r₀ e id log r { place := .waiting })
    (first : r.writer.lane.isHeldBy id = true) (named : r₀.forgets e = requestIds) :
    Leads r₀ e id log (r.dropPairs id requestIds) := by
  have hf := (hr.giveBack rfl first fun key _ => requestIds.contains key).leave.forget
  rw [named] at hf
  have hj := hf.join rfl
  unfold Relay.dropPairs
  simp only
  split
  · rename_i hfirst
    exact ⟨hj.resync rfl hfirst, trivial⟩
  · exact ⟨hj, trivial⟩

theorem begin_leads {job : Job} (hfree : Table.get? r₀.calls id = none)
    (hlog : Event.start id job ∈ log) :
    Leads r₀ (.start id job) id log (r₀.begin id job) := by
  have hr : Reached r₀ (.start id job) id log r₀ {} := .start (by simp [holdOf, hfree])
  cases job with
  | process op => exact ⟨hr, hlog⟩
  | processSimulated op outcome =>
    exact intercept_leads hr (fun request hf => .given hf rfl hlog) _
  | expire =>
    simp only [Relay.begin]
    split
    · split
      · rename_i hfirst
        exact ⟨(hr.join rfl).clear hfirst _, trivial⟩
      · exact ⟨hr.join rfl, trivial⟩
    · exact ⟨hr, trivial⟩
  | drop requestIds =>
    simp only [Relay.begin]
    split
    · rename_i hfirst
      refine dropPairs_leads (hr.join rfl) hfirst ?_
      have hfirst' : (r₀.writer.lane.join id).isHeldBy id = true := hfirst
      simp [forgets, Table.contains, hfree, hfirst']
    · exact ⟨hr.join rfl, trivial⟩

theorem resumeTurn_leads {stage : Stage} (hcall : Table.get? r₀.calls id = some stage)
    (hb : stage.Backed r₀.config r₀.writer.signer id log)
    (first : r₀.writer.lane.isHeldBy id = true) :
    Leads r₀ (.turn id) id log (r₀.resumeTurn id stage) := by
  have hr : Reached r₀ (.turn id) id log r₀ stage.hold := .start (by simp [holdOf, hcall])
  cases stage with
  | clearing since op request block deadline =>
    exact takeOn_leads (hr.clear first _) hb _
  | expiring since => exact ⟨hr.clear first _, trivial⟩
  | dropping requestIds =>
    exact dropPairs_leads hr first (by simp [forgets, hcall, first])
  | resyncing released => exact ⟨hr.resync rfl first, trivial⟩
  | drafting c answer stage =>
    obtain ⟨hd, ha, hw⟩ := hb
    cases stage with
    | queued => exact afterDrafting_leads hd ha (takeTurn_drafts hr)
    | reading => exact ⟨hr, hd, ha, hw⟩
    | simulating write => exact ⟨hr, hd, ha, hw⟩
  | readingBlock => exact ⟨hr, hb⟩
  | simulating => exact ⟨hr, hb⟩
  | resolving => exact ⟨hr, hb⟩
  | asking => exact ⟨hr, hb⟩
  | resimulating => exact ⟨hr, hb⟩

theorem resumeReply_leads {stage : Stage} {reply : Reply}
    (hcall : Table.get? r₀.calls id = some stage)
    (hb : stage.Backed r₀.config r₀.writer.signer id log)
    (hlog : Event.reply id reply ∈ log) :
    Leads r₀ (.reply id reply) id log (r₀.resumeReply id stage reply) := by
  have hr : Reached r₀ (.reply id reply) id log r₀ stage.hold := .start (by simp [holdOf, hcall])
  unfold Relay.resumeReply
  split
  · exact ⟨hr, hb⟩
  · exact ⟨hr, trivial⟩
  · exact intercept_leads hr (fun request hf => .simulated hf rfl hb hlog) _
  · exact ⟨hr, trivial⟩
  · rename_i c row
    obtain ⟨hd, hl⟩ := hb
    cases hc : row.check c.request.account c.block with
    | error err => exact hr.reject _
    | ok registration =>
      simp only
      rw [enter_eq hl rfl]
      exact ⟨hr.record .requesting rfl, hd, .checked hlog hc, rfl⟩
  · exact hr.reject _
  · rename_i c registration reply
    obtain ⟨hd, hg, hl⟩ := hb
    refine afterResponse_leads hr hd hg hl ?_ ?_
    · rintro response rfl
      exact hlog
    · rintro err rfl
      exact .inl hlog
  · rename_i c answer reply
    refine afterDrafting_leads hb.1 hb.2.1 (nonceRead_drafts hr ?_ rfl)
    rintro nonce rfl
    simp [teaches?, hcall]
  · rename_i c answer write reply
    exact afterDrafting_leads hb.1 hb.2.1 (simulated_drafts hr (hb.2.2 write rfl) reply)
  · rename_i c answer prepared reply
    obtain ⟨hd, ⟨l, ha, hl⟩, hw⟩ := hb
    exact afterResimulation_leads hr (by simp [holdOf, hcall, Stage.hold])
      (by simp [holdOf, hcall, Stage.hold]) hd ha hl hw reply
  · exact ⟨hr, hb⟩

theorem resumeTimeout_leads {stage : Stage} (hcall : Table.get? r₀.calls id = some stage)
    (hb : stage.Backed r₀.config r₀.writer.signer id log) (hlog : Event.timeout id ∈ log) :
    Leads r₀ (.timeout id) id log (r₀.resumeTimeout id stage) := by
  have hr : Reached r₀ (.timeout id) id log r₀ stage.hold := .start (by simp [holdOf, hcall])
  cases stage with
  | readingBlock => exact ⟨hr, trivial⟩
  | simulating => exact ⟨hr, trivial⟩
  | resolving c => exact hr.reject _
  | asking c registration =>
    obtain ⟨hd, hg, hl⟩ := hb
    have htimeout : ∀ err : ServiceError,
        (Except.error .timeout : Except ServiceError ComputeResponse) = .error err →
        Event.reply id (.response (.error err)) ∈ log ∨ err = .timeout ∧ Event.timeout id ∈ log :=
      fun err herr => .inr ⟨(Except.error.inj herr).symm, hlog⟩
    exact afterResponse_leads hr hd hg hl (fun _ hresp => by cases hresp) htimeout
  | drafting c answer stage => exact hr.giveUp rfl rfl _
  | resimulating c answer prepared => exact hr.giveUp rfl rfl _
  | clearing => exact ⟨hr, hb⟩
  | expiring => exact ⟨hr, hb⟩
  | dropping => exact ⟨hr, hb⟩
  | resyncing => exact ⟨hr, hb⟩

theorem abandonStage_reached {stage : Stage} (hcall : Table.get? r₀.calls id = some stage) :
    Reached r₀ (.abandon id) id log (r₀.abandonStage id stage) {} := by
  have hh : r₀.holdOf id = stage.hold := by simp [holdOf, hcall]
  have hr : Reached r₀ (.abandon id) id log r₀ stage.hold := .start hh
  have hgone : ∀ c : Candidate, stage.hold.row? = c.row? →
      r₀.letsGo? (.abandon id) = some c.requestId := by
    intro c hc
    simp [letsGo?, hh, hc, Candidate.row?]
  cases stage with
  | readingBlock => exact hr
  | simulating => exact hr
  | clearing => exact hr.leave
  | resolving c =>
    exact ⟨hr.config, hr.signer, hr.calls, hr.moves.tail (.letGo rfl rfl (hgone c rfl))⟩
  | asking c =>
    exact ⟨hr.config, hr.signer, hr.calls, hr.moves.tail (.letGo rfl rfl (hgone c rfl))⟩
  | drafting c =>
    have ha := hr.abandon rfl
    exact ⟨ha.config, ha.signer, ha.calls, ha.moves.tail (.letGo rfl rfl (hgone c rfl))⟩
  | resimulating c =>
    have ha := hr.abandon rfl
    exact ⟨ha.config, ha.signer, ha.calls, ha.moves.tail (.letGo rfl rfl (hgone c rfl))⟩
  | expiring => exact hr.leave
  | dropping => exact hr.leave
  | resyncing => exact hr.leave

/-- What a step of the relay does: it moves one call, whose stage or result is backed. -/
structure Stepped (r : Relay) (e : Event) (id : CallId) (log : List Event)
    (out : Relay × Option Result) : Prop where
  config : out.1.config = r.config
  signer : out.1.writer.signer = r.writer.signer
  others : ∀ k, k ≠ id → Table.get? out.1.calls k = Table.get? r.calls k
  moves : Moves r e id log (r.shared, r.holdOf id) (out.1.shared, out.1.holdOf id)
  stage : ∀ stage, Table.get? out.1.calls id = some stage →
    stage.Backed r.config r.writer.signer id log
  result : ∀ result, out.2 = some result →
    (Progress.finished result).Backed r id log out.1

theorem Leads.settle {step : Relay × Progress} (hl : Leads r e id log step) :
    Stepped r e id log (settle id step) := by
  obtain ⟨r', progress⟩ := step
  obtain ⟨⟨hconfig, hsigner, hcalls, hmoves⟩, hb⟩ := hl
  simp only at hconfig hsigner hcalls hmoves hb
  cases progress with
  | waiting stage =>
    have hown : Table.get? (Table.insert r'.calls id stage) id = some stage := by
      simp [Table.get?_insert]
    refine ⟨hconfig, hsigner, ?_, ?_, ?_, by rintro result ⟨⟩⟩
    · intro k hk
      simp [Relay.settle, Table.get?_insert, hcalls, Ne.symm hk]
    · simpa [Relay.settle, holdOf, hown, shared, Progress.hold] using hmoves
    · intro stage' hs
      rw [show stage' = stage from Option.some.inj (hs.symm.trans hown)]
      exact hb
  | finished result =>
    have hown : Table.get? (Table.erase r'.calls id) id = none := by simp [Table.get?_erase]
    refine ⟨hconfig, hsigner, ?_, ?_, ?_, ?_⟩
    · intro k hk
      simp [Relay.settle, Table.get?_erase, hcalls, Ne.symm hk]
    · simpa [Relay.settle, holdOf, hown, shared, Progress.hold] using hmoves
    · intro stage hs
      cases hown.symm.trans hs
    · intro result' hres
      rw [show result = result' from Option.some.inj hres] at hb
      exact hb

/-- A step that takes no call further: at most the working sets change. -/
theorem stepped_of_calls {out : Relay × Option Result}
    (hb : ∀ stage, Table.get? r.calls id = some stage →
      stage.Backed r.config r.writer.signer id log)
    (hconfig : out.1.config = r.config) (hsigner : out.1.writer.signer = r.writer.signer)
    (hcalls : out.1.calls = r.calls) (hnone : out.2 = none)
    (hmoves : Moves r e id log (r.shared, r.holdOf id) (out.1.shared, r.holdOf id)) :
    Stepped r e id log out := by
  refine ⟨hconfig, hsigner, fun k _ => by rw [hcalls], ?_, ?_, ?_⟩
  · rw [show out.1.holdOf id = r.holdOf id by rw [holdOf, hcalls, holdOf]]
    exact hmoves
  · rw [hcalls]
    exact hb
  · rw [hnone]
    exact nofun

theorem Resumed.leads {stage : Stage} {step : Relay × Progress} (h : Resumed r id stage e step)
    (hs : Table.get? r.calls id = some stage)
    (hb : stage.Backed r.config r.writer.signer id log) : Leads r e id (log ++ [e]) step := by
  -- the stage stays backed when the call hears another event
  have hgrown := hb.mono (List.subset_append_left log [e])
  have hlast : e ∈ log ++ [e] := List.mem_append_right _ (List.mem_singleton_self e)
  cases h with
  | turn first => exact resumeTurn_leads hs hgrown first
  | reply => exact resumeReply_leads hs hgrown hlast
  | timeout => exact resumeTimeout_leads hs hgrown hlast

theorem abandoned_stepped {stage : Stage} (hs : Table.get? r.calls id = some stage) :
    Stepped r (.abandon id) id log
      ({ r.abandonStage id stage with calls := Table.erase r.calls id }, none) := by
  obtain ⟨hconfig, hsigner, -, hmoves⟩ := abandonStage_reached hs
  have hown : Table.get? (Table.erase r.calls id) id = none := by simp [Table.get?_erase]
  refine ⟨hconfig, hsigner, ?_, ?_, ?_, by rintro result ⟨⟩⟩
  · intro k hk
    simp [Table.get?_erase, Ne.symm hk]
  · simpa [holdOf, hown, shared] using hmoves
  · intro stage' hs'
    cases hown.symm.trans hs'

theorem Addressed.stepped {out : Relay × Option Result} (h : Addressed r id e out)
    (ha : r.addressee? e = some id)
    (hb : ∀ stage, Table.get? r.calls id = some stage →
      stage.Backed r.config r.writer.signer id log) :
    Stepped r e id (r.hear id log e) out := by
  cases h with
  | started job unused =>
    have hheard : r.hear id log (.start id job) = [.start id job] := if_pos ha
    rw [hheard]
    exact (begin_leads unused (List.mem_singleton_self _)).settle
  | resumed found resumed =>
    rw [resumed.hear_eq ha]
    exact (resumed.leads found (hb _ found)).settle
  | abandoned found => exact abandoned_stepped found

theorem Unaddressed.stepped {out : Relay × Option Result} (h : Unaddressed r e out)
    {logs : CallId → List Event}
    (hb : ∀ id stage, Table.get? r.calls id = some stage →
      stage.Backed r.config r.writer.signer id (logs id)) :
    ∃ id, Stepped r e id (logs id) out := by
  cases h with
  | ignored => exact ⟨"", stepped_of_calls (hb "") rfl rfl rfl rfl .refl⟩
  | attached stored accepted =>
    exact ⟨"", stepped_of_calls (hb "") rfl rfl rfl rfl (.single (.attach stored accepted))⟩
  | submitted requestIds =>
    -- ids are forgotten for no call: a name that stands for none holds nothing
    obtain ⟨id, hid⟩ := r.exists_unused
    have hnone : r.holdOf id = {} := by simp [holdOf, hid]
    refine ⟨id, stepped_of_calls (hb id) rfl rfl rfl rfl ?_⟩
    rw [hnone]
    exact .single .forget
  | ticked => exact ⟨"", stepped_of_calls (hb "") rfl rfl rfl rfl .refl⟩

/-- Every step of a relay whose calls are at backed stages moves one call, as its moves allow. -/
theorem step_stepped (r : Relay) (e : Event) {logs : CallId → List Event}
    (hb : ∀ id stage, Table.get? r.calls id = some stage →
      stage.Backed r.config r.writer.signer id (logs id)) :
    ∃ id, (∀ k, r.addressee? e = some k → k = id) ∧
      Stepped r e id (r.hear id (logs id) e) (r.step e) := by
  cases ha : r.addressee? e with
  | none =>
    obtain ⟨id, hs⟩ := (step_unaddressed ha).stepped hb
    refine ⟨id, by rintro k ⟨⟩, ?_⟩
    rwa [hear_of_none ha]
  | some id =>
    refine ⟨id, fun k hk => (Option.some.inj hk).symm, ?_⟩
    exact (step_addressed ha).stepped ha (hb id)

theorem Stepped.holdOf_eq {out : Relay × Option Result} (h : Stepped r e id log out) :
    out.1.holdOf = Function.update r.holdOf id (out.1.holdOf id) := by
  funext k
  by_cases hk : k = id
  · subst hk
    rw [Function.update_self]
  · rw [Function.update_of_ne hk, holdOf, h.others k hk, holdOf]

variable {config : Config} {signer : Signer}

theorem run_backed (config : Config) (signer : Signer) (es : List Event) :
    ((idle config signer).after es).config = config ∧
      ((idle config signer).after es).writer.signer = signer ∧
      ∀ id stage, Table.get? ((idle config signer).after es).calls id = some stage →
        stage.Backed config signer id ((idle config signer).heard es id) := by
  induction es using List.reverseRecOn with
  | nil =>
    refine ⟨rfl, rfl, ?_⟩
    intro id stage hs
    simp [idle, Table.get?] at hs
  | append_singleton es e ih =>
    obtain ⟨hconfig, hsigner, hb⟩ := ih
    have hb' : ∀ id stage, Table.get? ((idle config signer).after es).calls id = some stage →
        stage.Backed ((idle config signer).after es).config
          ((idle config signer).after es).writer.signer id ((idle config signer).heard es id) := by
      rw [hconfig, hsigner]
      exact hb
    obtain ⟨id, hothers, hs⟩ := step_stepped _ e hb'
    rw [after_concat]
    refine ⟨hs.config.trans hconfig, hs.signer.trans hsigner, ?_⟩
    intro k stage hk
    by_cases hki : k = id
    · subst hki
      have hst := hs.stage stage hk
      rw [hconfig, hsigner, ← heard_concat] at hst
      exact hst
    · rw [heard_concat_of_ne fun ha => hki (hothers k ha)]
      exact hb k stage ((hs.others k hki).symm.trans hk)

theorem run_stepped (config : Config) (signer : Signer) (es : List Event) (e : Event) :
    ∃ id, (∀ k, ((idle config signer).after es).addressee? e = some k → k = id) ∧
      Stepped ((idle config signer).after es) e id ((idle config signer).heard (es ++ [e]) id)
        (((idle config signer).after es).step e) := by
  obtain ⟨hconfig, hsigner, hb⟩ := run_backed config signer es
  simp only [heard_concat]
  apply step_stepped
  rw [hconfig, hsigner]
  exact hb

theorem run_others {es : List Event} {e : Event} {id k : CallId}
    (ha : ((idle config signer).after es).addressee? e = some id) (hk : k ≠ id) :
    Table.get? ((idle config signer).after (es ++ [e])).calls k =
      Table.get? ((idle config signer).after es).calls k := by
  obtain ⟨id', hid, hs⟩ := run_stepped config signer es e
  obtain rfl := hid id ha
  rw [after_concat]
  exact hs.others k hk

/-- What is kept by every move is kept by a step. -/
theorem step_keeps {P : Shared → (CallId → Hold) → Prop} {es : List Event} {e : Event}
    (hmove : ∀ id, KeptByMoves ((idle config signer).after es) e id
      ((idle config signer).heard (es ++ [e]) id) P)
    (hp : P ((idle config signer).after es).shared ((idle config signer).after es).holdOf) :
    P ((idle config signer).after (es ++ [e])).shared
      ((idle config signer).after (es ++ [e])).holdOf := by
  obtain ⟨id, -, hs⟩ := run_stepped config signer es e
  rw [after_concat, hs.holdOf_eq]
  refine KeptByMoves.chain (hmove id) hs.moves ?_
  rw [Function.update_eq_self]
  exact hp

/-- What holds of an idle relay and is kept by every move holds after every run. -/
theorem run_keeps {ok : Relay → Event → Prop}
    {P : List Event → Shared → (CallId → Hold) → Prop} (hstart : P [] {} fun _ => {})
    (hgrow : ∀ es e s f, P es s f → P (es ++ [e]) s f)
    (hmove : ∀ es e id, ok ((idle config signer).after es) e →
      P es ((idle config signer).after es).shared ((idle config signer).after es).holdOf →
      KeptByMoves ((idle config signer).after es) e id
        ((idle config signer).heard (es ++ [e]) id) (P (es ++ [e])))
    {es : List Event} (h : Throughout ok (idle config signer) es) :
    P es ((idle config signer).after es).shared ((idle config signer).after es).holdOf := by
  refine run_induction (P := fun es r => P es r.shared r.holdOf) (r := idle config signer)
    hstart ?_ h
  intro es e hp hok
  rw [← after_concat]
  exact step_keeps (fun id => hmove es e id hok hp) (hgrow es e _ _ hp)

end ComputeRelay
