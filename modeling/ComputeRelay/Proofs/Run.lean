import ComputeRelay.Proofs.Tables
import ComputeRelay.Relay.Step

/-! Runs of a relay from event to event, and what a call has heard since it began. An event that
does not apply is addressed to no call, so no call hears it. -/

namespace ComputeRelay

/-- Whether a reply is of the kind that a stage waits for. -/
def Stage.expects : Stage → Reply → Bool
  | .readingBlock _ _, .block _ => true
  | .simulating _ _ _, .simulation _ => true
  | .resolving _, .row _ => true
  | .asking _ _, .response _ => true
  | .drafting _ _ .reading, .nonce _ => true
  | .drafting _ _ (.simulating _), .simulation _ => true
  | .resimulating _ _ _, .simulation _ => true
  | _, _ => false

namespace Relay

/-- A relay with nothing in flight. -/
def idle (config : Config) (signer : Signer) : Relay := { writer := { config, signer } }

theorem eq_idle_of_create {config : Config} {signer : Signer} {r : Relay}
    (h : create config signer = .ok r) : r = idle config signer := by
  unfold create at h
  cases hv : config.validate with
  | error e =>
    rw [hv] at h
    exact nomatch h
  | ok u =>
    rw [hv] at h
    exact (Except.ok.inj h).symm

def after (r : Relay) (es : List Event) : Relay := es.foldl (fun r e => (r.step e).1) r

@[simp] theorem after_nil (r : Relay) : r.after [] = r := rfl

theorem after_cons (r : Relay) (e : Event) (es : List Event) :
    r.after (e :: es) = (r.step e).1.after es := rfl

theorem after_append (r : Relay) (es es' : List Event) :
    r.after (es ++ es') = (r.after es).after es' := List.foldl_append

theorem after_concat (r : Relay) (es : List Event) (e : Event) :
    r.after (es ++ [e]) = ((r.after es).step e).1 := after_append r es [e]

/-- A condition on every step of a run, in the state before the step. -/
def Throughout (ok : Relay → Event → Prop) (r : Relay) : List Event → Prop
  | [] => True
  | e :: es => ok r e ∧ Throughout ok (r.step e).1 es

theorem throughout_append {ok : Relay → Event → Prop} {r : Relay} {es es' : List Event} :
    Throughout ok r (es ++ es') ↔ Throughout ok r es ∧ Throughout ok (r.after es) es' := by
  induction es generalizing r with
  | nil => simp [Throughout]
  | cons e es ih => simp [Throughout, ih, after_cons, and_assoc]

theorem throughout_concat {ok : Relay → Event → Prop} {r : Relay} {es : List Event} {e : Event} :
    Throughout ok r (es ++ [e]) ↔ Throughout ok r es ∧ ok (r.after es) e := by
  simp [throughout_append, Throughout]

theorem Throughout.cons {ok : Relay → Event → Prop} {r r' : Relay} {e : Event} {es : List Event}
    {result? : Option Result} (hok : ok r e) (hstep : r.step e = (r', result?))
    (h : Throughout ok r' es) : Throughout ok r (e :: es) := by
  refine ⟨hok, ?_⟩
  rw [hstep]
  exact h

theorem Throughout.and {ok ok' : Relay → Event → Prop} {r : Relay} {es : List Event}
    (h : Throughout ok r es) (h' : Throughout ok' r es) :
    Throughout (fun r e => ok r e ∧ ok' r e) r es := by
  induction es generalizing r with
  | nil => trivial
  | cons e es ih => exact ⟨⟨h.1, h'.1⟩, ih h.2 h'.2⟩

theorem Throughout.imp {ok ok' : Relay → Event → Prop} (himp : ∀ r e, ok r e → ok' r e)
    {r : Relay} {es : List Event} (h : Throughout ok r es) : Throughout ok' r es := by
  induction es generalizing r with
  | nil => trivial
  | cons e es ih => exact ⟨himp r e h.1, ih h.2⟩

theorem throughout_trivial (r : Relay) (es : List Event) :
    Throughout (fun _ _ => True) r es := by
  induction es generalizing r with
  | nil => trivial
  | cons e es ih => exact ⟨trivial, ih _⟩

instance decidableThroughout (ok : Relay → Event → Prop) [∀ r e, Decidable (ok r e)] (r : Relay) :
    (es : List Event) → Decidable (Throughout ok r es)
  | [] => isTrue trivial
  | e :: es =>
    have := decidableThroughout ok (r.step e).1 es
    inferInstanceAs (Decidable (ok r e ∧ Throughout ok (r.step e).1 es))

/-- What holds at the start and is kept by each step holds after every run. -/
theorem run_induction {ok : Relay → Event → Prop} {P : List Event → Relay → Prop} {r : Relay}
    (hstart : P [] r)
    (hstep : ∀ es e, P es (r.after es) → ok (r.after es) e →
      P (es ++ [e]) ((r.after es).step e).1)
    {es : List Event} (h : Throughout ok r es) : P es (r.after es) := by
  induction es using List.reverseRecOn with
  | nil => exact hstart
  | append_singleton es e ih =>
    obtain ⟨hes, he⟩ := throughout_concat.mp h
    rw [after_concat]
    exact hstep es e (ih hes) he

theorem exists_unused (r : Relay) : ∃ id, Table.get? r.calls id = none := by
  obtain ⟨id, hid⟩ := Infinite.exists_notMem_finset (Table.keys r.calls).toFinset
  rw [List.mem_toFinset, Table.mem_keys_iff, not_exists] at hid
  exact ⟨id, Option.eq_none_iff_forall_ne_some.mpr hid⟩

/-- The call that an event starts, ends or takes further. -/
def addressee? (r : Relay) : Event → Option CallId
  | .start id _ => if Table.contains r.calls id then none else some id
  | .turn id => if Table.contains r.calls id && r.writer.lane.isHeldBy id then some id else none
  | .reply id reply => if (Table.get? r.calls id).any (·.expects reply) then some id else none
  | .timeout id =>
    if (Table.get? r.calls id).any fun stage => stage.deadline?.any (· ≤ r.now) then some id
    else none
  | .abandon id => if Table.contains r.calls id then some id else none
  | _ => none

theorem addressee_start {r : Relay} {id : CallId} (job : Job)
    (hs : Table.get? r.calls id = none) : r.addressee? (.start id job) = some id := by
  simp [addressee?, Table.contains, hs]

theorem addressee_reply {r : Relay} {id : CallId} {stage : Stage} {reply : Reply}
    (hs : Table.get? r.calls id = some stage) (hx : stage.expects reply = true) :
    r.addressee? (.reply id reply) = some id := by
  simp [addressee?, hs, hx]

/-- What a call has heard after an event, from what it had heard before. -/
def hear (r : Relay) (id : CallId) (log : List Event) (e : Event) : List Event :=
  if r.addressee? e = some id then
    match e with
    | .start _ _ => [e]
    | _ => log ++ [e]
  else log

def heardFrom (id : CallId) : Relay → List Event → List Event → List Event
  | _, log, [] => log
  | r, log, e :: es => heardFrom id (r.step e).1 (r.hear id log e) es

/-- The events that a call has taken in since it last began, its beginning included. -/
def heard (r : Relay) (es : List Event) (id : CallId) : List Event := heardFrom id r [] es

theorem heardFrom_concat (id : CallId) (r : Relay) (log es : List Event) (e : Event) :
    heardFrom id r log (es ++ [e]) = (r.after es).hear id (heardFrom id r log es) e := by
  induction es generalizing r log with
  | nil => rfl
  | cons e' es ih => exact ih (r.step e').1 (r.hear id log e')

theorem heard_concat (r : Relay) (es : List Event) (e : Event) (id : CallId) :
    r.heard (es ++ [e]) id = (r.after es).hear id (r.heard es id) e :=
  heardFrom_concat id r [] es e

theorem heard_concat_of_ne {r : Relay} {es : List Event} {e : Event} {id : CallId}
    (h : (r.after es).addressee? e ≠ some id) : r.heard (es ++ [e]) id = r.heard es id := by
  rw [heard_concat]
  exact if_neg h

end Relay

end ComputeRelay
