import ComputeRelay.Lifecycle
import Mathlib

/-! What the record of a request can hold, whatever is attempted on it. States are recorded along
the course of a successful request, one after the other; a failure may come in at any point before
the last of them, and ends the record as that one does. -/

namespace ComputeRelay

/-- A request moves on to the next state of the course, or fails unless it has ended. -/
inductive RequestState.Leads : RequestState → RequestState → Prop
  | next {s t : RequestState} (along : [s, t] <:+: course) : Leads s t
  | failed {s : RequestState} (live : s.isTerminal = false) (reason : FailureReason) :
      Leads s (.failed reason)

namespace RequestState

variable {s t : RequestState} {passed : List RequestState}

theorem failed_not_mem_course (reason : FailureReason) : .failed reason ∉ course := by
  simp [course]

theorem next?_course : ∀ i < 7, course[i]?.bind next? = course[i + 1]? := by decide

theorem isTerminal_course : ∀ i < 7, course[i]?.any isTerminal = true → i = 6 := by decide

theorem next?_eq_some_iff : s.next? = some t ↔ [s, t] <:+: course := by
  constructor
  · intro h
    cases s <;> cases h <;> decide
  · rintro ⟨before, rest, hcourse⟩
    have along : before ++ [s, t] <+: course := ⟨rest, hcourse⟩
    have hlength : before.length + 2 ≤ 7 := by simpa [course] using along.length_le
    have hnext := next?_course before.length (by omega)
    rw [← hcourse] at hnext
    simpa using hnext

theorem concat_prefix_course {before : List RequestState} (along : before ++ [s] <+: course)
    (hnext : s.next? = some t) : before ++ [s] ++ [t] <+: course := by
  have hlength : before.length + 1 ≤ 7 := by simpa [course] using along.length_le
  have hs : course[before.length]? = some s := by
    simpa using List.prefix_iff_getElem?.mp along before.length (by simp)
  have ht := next?_course before.length (by omega)
  rw [hs, Option.bind_some, hnext] at ht
  obtain ⟨hlt, rfl⟩ := List.getElem?_eq_some_iff.mp ht.symm
  simpa using List.concat_get_prefix along (by simpa using hlt)

theorem not_leads_of_terminal (h : s.isTerminal = true) : ¬ Leads s t := by
  intro hleads
  cases hleads with
  | next along =>
    have hnext := next?_eq_some_iff.mpr along
    cases s <;> cases h <;> cases hnext
  | failed live => cases live.symm.trans h

theorem transition_cases (s t : RequestState) :
    Leads s t ∧ s.transition t = .ok t ∨ ¬ Leads s t ∧ s.transition t = .error ⟨s, t⟩ := by
  by_cases hfailed : ∃ reason, t = .failed reason
  · obtain ⟨reason, rfl⟩ := hfailed
    cases hlive : s.isTerminal with
    | false => exact .inl ⟨.failed hlive reason, by simp [transition, hlive]⟩
    | true => exact .inr ⟨not_leads_of_terminal hlive, by simp [transition, hlive]⟩
  · have htransition : s.transition t = if s.next? = some t then .ok t else .error ⟨s, t⟩ := by
      cases t with
      | failed reason => exact absurd ⟨reason, rfl⟩ hfailed
      | _ => rfl
    rw [htransition]
    by_cases hnext : s.next? = some t
    · exact .inl ⟨.next (next?_eq_some_iff.mp hnext), if_pos hnext⟩
    · refine .inr ⟨?_, if_neg hnext⟩
      intro hleads
      cases hleads with
      | next along => exact hnext (next?_eq_some_iff.mpr along)
      | failed live reason => exact hfailed ⟨reason, rfl⟩

/-- No state that has been passed is terminal, unless the course has been passed to its end. -/
theorem eq_course_of_terminal (along : passed <+: course) {i : Nat} (hs : passed[i]? = some s)
    (hterminal : s.isTerminal = true) : passed = course ∧ i = 6 := by
  obtain ⟨hi, rfl⟩ := List.getElem?_eq_some_iff.mp hs
  have hcourse : course[i]? = some passed[i] := List.prefix_iff_getElem?.mp along i hi
  have hlength : passed.length ≤ 7 := along.length_le
  have hlast : i = 6 := by
    refine isTerminal_course i (by omega) ?_
    rw [hcourse]
    exact hterminal
  have hall : passed.length = course.length := by
    simp only [course, List.length_cons, List.length_nil]
    omega
  exact ⟨along.eq_of_length hall, hlast⟩

end RequestState

open RequestState

/-- States from the first one of the course on, in its order, and a failure at most behind them. -/
inductive Recorded : List RequestState → Prop
  | onCourse {passed : List RequestState} (begun : passed ≠ []) (along : passed <+: course) :
      Recorded passed
  | failed {passed : List RequestState} (begun : passed ≠ []) (along : passed <+: course)
      (unfinished : .completed ∉ passed) (reason : FailureReason) :
      Recorded (passed ++ [.failed reason])

namespace Recorded

variable {history before : List RequestState} {s t : RequestState}

theorem nodup (h : Recorded history) : history.Nodup := by
  have hcourse : course.Nodup := by decide
  cases h with
  | onCourse begun along => exact along.sublist.nodup hcourse
  | @failed passed begun along unfinished reason =>
    have hnew : .failed reason ∉ passed := fun hin =>
      failed_not_mem_course reason (along.subset hin)
    rw [← List.concat_eq_append]
    exact (along.sublist.nodup hcourse).concat hnew

theorem length_le (h : Recorded history) : history.length ≤ 7 := by
  cases h with
  | onCourse begun along => exact along.length_le
  | @failed passed begun along unfinished reason =>
    have hlength : passed.length ≤ 7 := along.length_le
    have hne : passed.length ≠ 7 := by
      intro hall
      rw [along.eq_of_length hall] at unfinished
      exact unfinished (by decide)
    simp only [List.length_append, List.length_singleton]
    omega

theorem terminal_last (h : Recorded history) {i : Nat} (hs : history[i]? = some s)
    (hterminal : s.isTerminal = true) : i + 1 = history.length := by
  cases h with
  | onCourse begun along =>
    obtain ⟨rfl, rfl⟩ := eq_course_of_terminal along hs hterminal
    rfl
  | @failed passed begun along unfinished reason =>
    have hi := (List.getElem?_eq_some_iff.mp hs).1
    by_cases hpassed : i < passed.length
    · rw [List.getElem?_append_left hpassed] at hs
      obtain ⟨rfl, -⟩ := eq_course_of_terminal along hs hterminal
      exact absurd (by decide) unfinished
    · simp only [List.length_append, List.length_singleton] at hi ⊢
      omega

theorem not_nil : ¬ Recorded [] := by
  intro h
  generalize hhistory : [] = history at h
  cases h with
  | onCourse begun along => exact begun hhistory.symm
  | failed begun along unfinished reason => simp at hhistory

theorem singleton_iff : Recorded [s] ↔ s = .detected := by
  constructor
  · intro h
    generalize hhistory : [s] = history at h
    cases h with
    | onCourse begun along =>
      subst hhistory
      exact (List.cons_prefix_cons.mp along).1
    | @failed passed begun along unfinished reason =>
      cases passed with
      | nil => exact absurd rfl begun
      | cons u rest => simp at hhistory
  · rintro rfl
    exact .onCourse (by simp) (by decide)

theorem of_concat (h : Recorded (before ++ [s] ++ [t])) : Recorded (before ++ [s]) ∧ Leads s t := by
  generalize hhistory : before ++ [s] ++ [t] = history at h
  cases h with
  | onCourse begun along =>
    subst hhistory
    refine ⟨.onCourse (by simp) ((List.prefix_append _ [t]).trans along), .next ?_⟩
    rw [List.append_assoc] at along
    exact (List.suffix_append before [s, t]).isInfix.trans along.isInfix
  | failed begun along unfinished reason =>
    obtain ⟨rfl, hlast⟩ := List.append_inj' hhistory rfl
    obtain rfl := List.singleton_inj.mp hlast
    refine ⟨.onCourse begun along, .failed ?_ reason⟩
    by_contra hterminal
    have hs : (before ++ [s])[before.length]? = some s := by simp
    obtain ⟨hall, -⟩ := eq_course_of_terminal along hs (by simpa using hterminal)
    rw [hall] at unfinished
    exact unfinished (by decide)

/-- A record grows by what its last state leads to. -/
theorem concat (h : Recorded (before ++ [s])) (hleads : Leads s t) :
    Recorded (before ++ [s] ++ [t]) := by
  have hs : (before ++ [s])[before.length]? = some s := by simp
  generalize hhistory : before ++ [s] = history at h hs ⊢
  cases h with
  | onCourse begun along =>
    cases hleads with
    | next next =>
      subst hhistory
      exact .onCourse (by simp) (concat_prefix_course along (next?_eq_some_iff.mpr next))
    | failed live reason =>
      refine .failed begun along ?_ reason
      intro hcompleted
      -- The course ends with its completion, so that would be the last state recorded.
      obtain ⟨i, hi⟩ := List.getElem?_of_mem hcompleted
      obtain ⟨rfl, -⟩ := eq_course_of_terminal along hi rfl
      have hlength : before.length = 6 := by simpa [course] using congrArg List.length hhistory
      rw [hlength] at hs
      obtain rfl : RequestState.completed = s := Option.some.inj hs
      cases live
  | failed begun along unfinished reason =>
    obtain ⟨-, hlast⟩ := List.append_inj' hhistory rfl
    obtain rfl := List.singleton_inj.mp hlast
    exact absurd hleads (not_leads_of_terminal rfl)

end Recorded

/-- What can be asked of the record of a request. -/
inductive Attempt
  | advance (target : RequestState)
  | fail (reason : FailureReason)
deriving DecidableEq, Repr

def Attempt.target : Attempt → RequestState
  | .advance target => target
  | .fail reason => .failed reason

namespace Lifecycle

def attempt (l : Lifecycle) : Attempt → Except TransitionError Lifecycle
  | .advance target => l.advance target
  | .fail reason => l.fail reason

/-- The record that an attempt leaves: the former one, when it is rejected. -/
def tries (l : Lifecycle) (a : Attempt) : Lifecycle :=
  match l.attempt a with
  | .ok l' => l'
  | .error _ => l

def after (l : Lifecycle) (attempts : List Attempt) : Lifecycle :=
  attempts.foldl tries l

variable {l : Lifecycle} {a : Attempt} {attempts : List Attempt}

theorem after_concat : l.after (attempts ++ [a]) = (l.after attempts).tries a := by
  simp [after]

theorem getLast?_history (l : Lifecycle) : l.history.getLast? = some l.state := by
  simp [history]

theorem attempt_eq (l : Lifecycle) (a : Attempt) : l.attempt a = l.advance a.target := by
  cases a <;> rfl

/-- Each attempt is recorded, or it is rejected and the record kept. -/
theorem attempt_cases (l : Lifecycle) (a : Attempt) :
    (Leads l.state a.target ∧ l.attempt a = .ok (l.tries a) ∧ (l.tries a).state = a.target ∧
        (l.tries a).history = l.history ++ [a.target]) ∨
      (¬ Leads l.state a.target ∧ l.attempt a = .error ⟨l.state, a.target⟩ ∧ l.tries a = l) := by
  rcases transition_cases l.state a.target with ⟨hleads, hmoves⟩ | ⟨hstays, hrejects⟩
  · have hattempt :
        l.attempt a = .ok { l with past := l.state :: l.past, state := a.target } := by
      rw [attempt_eq, advance, hmoves]
      rfl
    refine .inl ⟨hleads, ?_, ?_, ?_⟩ <;> simp [tries, hattempt, history]
  · have hattempt : l.attempt a = .error ⟨l.state, a.target⟩ := by
      rw [attempt_eq, advance, hrejects]
      rfl
    exact .inr ⟨hstays, hattempt, by simp [tries, hattempt]⟩

theorem tries_of_leads (h : Leads l.state a.target) :
    (l.tries a).history = l.history ++ [a.target] := by
  rcases attempt_cases l a with ⟨-, -, -, hhistory⟩ | ⟨hstays, -⟩
  · exact hhistory
  · exact absurd h hstays

theorem rejects_of_terminal (h : l.isTerminal = true) (a : Attempt) :
    l.attempt a = .error ⟨l.state, a.target⟩ ∧ l.tries a = l := by
  rcases attempt_cases l a with ⟨hleads, -⟩ | ⟨-, hrejects⟩
  · exact absurd hleads (not_leads_of_terminal h)
  · exact hrejects

theorem after_of_terminal (h : l.isTerminal = true) (attempts : List Attempt) :
    l.after attempts = l := by
  induction attempts with
  | nil => rfl
  | cons a attempts ih =>
    have hkept := (rejects_of_terminal h a).2
    rw [after, List.foldl_cons, hkept]
    exact ih

theorem fail_isOk_iff {reason : FailureReason} :
    (∃ l', l.fail reason = .ok l') ↔ l.isTerminal = false := by
  cases hterminal : l.isTerminal with
  | true =>
    have herror := (rejects_of_terminal hterminal (.fail reason)).1
    refine iff_of_false ?_ nofun
    rintro ⟨l', hok⟩
    exact nomatch herror.symm.trans hok
  | false =>
    rcases attempt_cases l (.fail reason) with ⟨-, hok, -⟩ | ⟨hstays, -⟩
    · exact iff_of_true ⟨_, hok⟩ rfl
    · exact absurd (.failed hterminal reason) hstays

variable {requestId : Hash}

theorem tries_recorded (h : Recorded l.history) : Recorded (l.tries a).history := by
  rcases attempt_cases l a with ⟨hleads, -, -, hhistory⟩ | ⟨-, -, hkept⟩
  · rw [hhistory]
    exact h.concat hleads
  · rw [hkept]
    exact h

theorem after_recorded (requestId : Hash) (attempts : List Attempt) :
    Recorded ((start requestId).after attempts).history := by
  induction attempts using List.reverseRecOn with
  | nil => exact Recorded.singleton_iff.mpr rfl
  | append_singleton attempts a ih =>
    rw [after_concat]
    exact tries_recorded ih

/-- Each state of a record is what some attempt was made for. -/
theorem exists_after_of_recorded {history : List RequestState} (h : Recorded history)
    (requestId : Hash) : ∃ attempts, ((start requestId).after attempts).history = history := by
  induction history using List.reverseRecOn with
  | nil => exact absurd h Recorded.not_nil
  | append_singleton before t ih =>
    rcases before.eq_nil_or_concat with rfl | ⟨before, s, rfl⟩
    · obtain rfl := Recorded.singleton_iff.mp h
      exact ⟨[], rfl⟩
    · rw [List.concat_eq_append] at h ih ⊢
      obtain ⟨hbefore, hleads⟩ := h.of_concat
      obtain ⟨attempts, hattempts⟩ := ih hbefore
      have hstate : ((start requestId).after attempts).state = s := by
        have hlast := getLast?_history ((start requestId).after attempts)
        rw [hattempts, List.getLast?_concat] at hlast
        exact (Option.some.inj hlast).symm
      refine ⟨attempts ++ [.advance t], ?_⟩
      rw [after_concat, tries_of_leads (hstate ▸ hleads), hattempts]
      rfl

/-- What is recorded of a request, over all attempts that can be made on it. -/
theorem recorded_exactly (requestId : Hash) :
    (∀ history, Recorded history ↔
      ∃ attempts, ((start requestId).after attempts).history = history) ∧
    ∀ attempts, let l := (start requestId).after attempts
      l.history.Nodup ∧ l.history.length ≤ 7 ∧ l.history.getLast? = some l.state ∧
      (∀ i s, l.history[i]? = some s → s.isTerminal = true → i + 1 = l.history.length) ∧
      (∀ a, (Leads l.state a.target ∧ l.attempt a = .ok (l.tries a) ∧
            (l.tries a).state = a.target ∧ (l.tries a).history = l.history ++ [a.target]) ∨
          (¬ Leads l.state a.target ∧ l.attempt a = .error ⟨l.state, a.target⟩ ∧
            l.tries a = l)) ∧
      (l.isTerminal = true → ∀ more a, l.after more = l ∧
        (l.after more).attempt a = .error ⟨l.state, a.target⟩) ∧
      ∀ reason, (∃ l', l.fail reason = .ok l') ↔ l.isTerminal = false := by
  constructor
  · intro history
    constructor
    · intro h
      exact exists_after_of_recorded h requestId
    · rintro ⟨attempts, rfl⟩
      exact after_recorded requestId attempts
  · intro attempts l
    have hrecorded : Recorded l.history := after_recorded requestId attempts
    refine ⟨hrecorded.nodup, hrecorded.length_le, getLast?_history l,
      fun i s => hrecorded.terminal_last, attempt_cases l, ?_, fun reason => fail_isOk_iff⟩
    intro hterminal more a
    have hkept := after_of_terminal hterminal more
    refine ⟨hkept, ?_⟩
    rw [hkept]
    exact (rejects_of_terminal hterminal a).1

end Lifecycle

/-- A request that is made to skip a state, to go back and to fail, and then to go on. -/
theorem Sample.recorded_until_failure :
    let l := (Lifecycle.start 1).after [.advance .requesting, .advance .resolving,
      .advance .detected, .advance .resolving, .fail .timeout, .advance .requesting]
    l.history = [.detected, .resolving, .failed .timeout] ∧ Recorded l.history ∧
      (l.history[2]? = some (.failed .timeout) ∧
        (RequestState.failed .timeout).isTerminal = true ∧ 2 + 1 = l.history.length) ∧
      l.isTerminal = true ∧
      (l.after [.fail .internal, .advance .completed]).attempt (.fail .internal) =
        .error ⟨.failed .timeout, .failed .internal⟩ := by
  intro l
  obtain ⟨hrecorded, hafter⟩ := Lifecycle.recorded_exactly 1
  obtain ⟨-, -, -, hlast, -, hended, -⟩ := hafter [.advance .requesting, .advance .resolving,
    .advance .detected, .advance .resolving, .fail .timeout, .advance .requesting]
  refine ⟨rfl, (hrecorded _).mpr ⟨_, rfl⟩, ⟨rfl, rfl, hlast 2 (.failed .timeout) rfl rfl⟩, rfl, ?_⟩
  exact (hended rfl _ _).2

end ComputeRelay
