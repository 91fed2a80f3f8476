import ComputeRelay.Proofs.Steps

/-! The line for the lane: a call stands in it exactly when it has a place there, and only the first
in line reads or has been granted a nonce, which is then the lane's next one. -/

namespace ComputeRelay

open Relay

namespace Lane

theorem isHeldBy_iff {l : Lane} {id : CallId} : l.isHeldBy id = true ↔ l.line.head? = some id := by
  simp [isHeldBy, holder?]

theorem standing_eq_reading {l : Lane} {id : CallId} :
    l.standing id = .reading ↔ l.line.head? = some id ∧ l.next = none := by
  unfold standing
  split
  · rename_i hh
    cases hn : l.next <;> simp [isHeldBy_iff.mp hh]
  · rename_i hh
    rw [isHeldBy_iff] at hh
    simp [hh]

theorem standing_eq_granted {l : Lane} {id : CallId} {nonce : Word} :
    l.standing id = .granted nonce ↔ l.line.head? = some id ∧ l.next = some nonce := by
  unfold standing
  split
  · rename_i hh
    cases hn : l.next <;> simp [isHeldBy_iff.mp hh]
  · rename_i hh
    rw [isHeldBy_iff] at hh
    simp [hh]

end Lane

/-- Whether a call at this place goes on by itself, as the first in line. -/
def Place.isFirst : Place → Bool
  | .reading => true
  | .granted _ => true
  | _ => false

structure InLine (s : Shared) (f : CallId → Hold) : Prop where
  nodup : s.lane.line.Nodup
  mem_iff : ∀ k, k ∈ s.lane.line ↔ (f k).place ≠ .outside
  first : ∀ k, (f k).place.isFirst = true → s.lane.line.head? = some k
  known : ∀ k nonce, (f k).place = .granted nonce → s.lane.next = some nonce

namespace InLine

variable {s s' : Shared} {f : CallId → Hold} {id : CallId} {h h' : Hold}

theorem congr (hi : InLine s (Function.update f id h)) (hlane : s'.lane = s.lane)
    (hplace : h'.place = h.place) : InLine s' (Function.update f id h') := by
  have hsame : ∀ k, (Function.update f id h' k).place = (Function.update f id h k).place := by
    intro k
    by_cases hk : k = id
    · subst hk
      simpa using hplace
    · simp [hk]
  refine ⟨hlane ▸ hi.nodup, ?_, ?_, ?_⟩
  · intro k
    rw [hlane, hsame]
    exact hi.mem_iff k
  · intro k hk
    rw [hsame] at hk
    rw [hlane]
    exact hi.first k hk
  · intro k nonce hk
    rw [hsame] at hk
    rw [hlane]
    exact hi.known k nonce hk

/-- The first in line may go on at its place and change the next nonce. -/
theorem hold (hi : InLine s (Function.update f id h)) (hhead : s.lane.line.head? = some id)
    (hline : s'.lane.line = s.lane.line) (hin : h'.place ≠ .outside)
    (hknown : ∀ nonce, h'.place = .granted nonce → s'.lane.next = some nonce) :
    InLine s' (Function.update f id h') := by
  have halone : ∀ k, k ≠ id → (f k).place.isFirst ≠ true := by
    intro k hk hf
    have hfirst := hi.first k (by simpa [hk] using hf)
    exact hk (Option.some.inj (hfirst.symm.trans hhead))
  refine ⟨hline ▸ hi.nodup, ?_, ?_, ?_⟩
  · intro k
    rw [hline]
    by_cases hk : k = id
    · subst hk
      simp [hin, List.mem_of_head? hhead]
    · simpa [hk] using hi.mem_iff k
  · intro k hf
    by_cases hk : k = id
    · rw [hline, hk, hhead]
    · exact absurd (by simpa [hk] using hf) (halone k hk)
  · intro k nonce hg
    by_cases hk : k = id
    · subst hk
      exact hknown nonce (by simpa using hg)
    · have hf : (f k).place = .granted nonce := by simpa [hk] using hg
      exact absurd (by simp [hf, Place.isFirst]) (halone k hk)

theorem join (hi : InLine s (Function.update f id h)) (hout : h.place = .outside) :
    InLine { s with lane := s.lane.join id }
      (Function.update f id { h with place := .waiting }) := by
  have hnew : id ∉ s.lane.line := by
    rw [hi.mem_iff]
    simpa using hout
  refine ⟨?_, ?_, ?_, ?_⟩
  · simpa [Lane.join, List.nodup_append] using ⟨hi.nodup, fun a ha hid => hnew (hid ▸ ha)⟩
  · intro k
    by_cases hk : k = id
    · subst hk
      simp [Lane.join]
    · simpa [Lane.join, hk] using hi.mem_iff k
  · intro k hf
    by_cases hk : k = id
    · subst hk
      simp [Place.isFirst] at hf
    · have hfirst := hi.first k (by simpa [hk] using hf)
      simp [Lane.join, List.head?_append, hfirst]
  · intro k nonce hg
    by_cases hk : k = id
    · subst hk
      simp at hg
    · exact hi.known k nonce (by simpa [hk] using hg)

/-- A call leaves the line. Only the first in line changes the next nonce when it does. -/
theorem leave (hi : InLine s (Function.update f id h))
    (hline : s'.lane.line = s.lane.line.erase id)
    (hnext : s'.lane.next = s.lane.next ∨ s.lane.line.head? = some id)
    (hout : h'.place = .outside) : InLine s' (Function.update f id h') := by
  refine ⟨?_, ?_, ?_, ?_⟩
  · rw [hline]
    exact hi.nodup.erase id
  · intro k
    rw [hline, hi.nodup.mem_erase_iff, hi.mem_iff]
    by_cases hk : k = id
    · subst hk
      simp [hout]
    · simp [hk]
  · intro k hf
    by_cases hk : k = id
    · subst hk
      simp [hout, Place.isFirst] at hf
    · have hfirst := hi.first k (by simpa [hk] using hf)
      obtain ⟨rest, hrest⟩ := List.head?_eq_some_iff.mp hfirst
      rw [hline, hrest, List.erase_cons_tail (by simpa using hk)]
      rfl
  · intro k nonce hg
    by_cases hk : k = id
    · subst hk
      simp [hout] at hg
    · have hg' : (f k).place = .granted nonce := by simpa [hk] using hg
      have hfirst := hi.first k (by simp [hk, hg', Place.isFirst])
      rcases hnext with hnext | hhead
      · rw [hnext]
        exact hi.known k nonce (by simpa [hk] using hg')
      · exact absurd (Option.some.inj (hfirst.symm.trans hhead)) hk

theorem kept (r : Relay) (e : Event) (id : CallId) (log : List Event) :
    KeptByMoves r e id log InLine := by
  intro s s' h h' hm hi
  cases hm with
  | join outside => exact hi.join outside
  | leave => exact hi.leave rfl (.inl rfl) rfl
  | read waiting first =>
    exact hi.hold (Lane.standing_eq_reading.mp first).1 rfl (by simp) (by simp)
  | grant waiting first =>
    obtain ⟨hhead, hnext⟩ := Lane.standing_eq_granted.mp first
    exact hi.hold hhead rfl (by simp) (by simp [hnext])
  | learn reading taught untouched =>
    have hhead := hi.first id (by simp [reading, Place.isFirst])
    exact hi.hold hhead rfl (by simp) (by simp [Lane.learn])
  | rewind waiting first fits =>
    exact hi.hold (Lane.isHeldBy_iff.mp first) rfl (by simp [waiting]) (by simp [waiting])
  | resync waiting first =>
    exact hi.hold (Lane.isHeldBy_iff.mp first) rfl (by simp [waiting]) (by simp [waiting])
  | reserve row free new => exact hi.congr rfl rfl
  | release held => exact hi.congr rfl rfl
  | enroll free new => exact hi.congr rfl rfl
  | record row => exact hi.congr rfl rfl
  | close row free => exact hi.congr rfl rfl
  | forget => exact hi.congr rfl rfl
  | finish now row held granted before backed =>
    have hhead := hi.first id (by simp [granted, Place.isFirst])
    exact hi.leave rfl (.inr hhead) rfl
  | attach stored accepted => exact hi.congr rfl rfl
  | letGo row free gone => exact hi.congr rfl rfl

end InLine

theorem idle_inLine : InLine {} fun _ => {} := by
  refine ⟨List.nodup_nil, ?_, ?_, ?_⟩
  · simp
  · simp [Place.isFirst]
  · simp

theorem run_inLine (config : Config) (signer : Signer) (es : List Event) :
    InLine ((idle config signer).after es).shared ((idle config signer).after es).holdOf :=
  run_keeps (P := fun _ => InLine) idle_inLine (fun _ _ _ _ hi => hi)
    (fun _ _ id _ _ => InLine.kept _ _ id _) (throughout_trivial _ es)

/-- The nonce is read only as long as it is unknown. -/
structure ReadsUnknown (s : Shared) (f : CallId → Hold) : Prop where
  inLine : InLine s f
  unknown : ∀ k, (f k).place = .reading → s.lane.next = none

theorem ReadsUnknown.kept (r : Relay) (e : Event) (id : CallId) (log : List Event) :
    KeptByMoves r e id log ReadsUnknown := by
  rintro s s' h h' hm ⟨hi, hu⟩
  refine ⟨InLine.kept r e id log hm hi, ?_⟩
  have hown : h.place = .reading → s.lane.next = none := fun hp => hu id (by simpa using hp)
  have hother : ∀ k, k ≠ id → (r.holdOf k).place = .reading →
      s.lane.next = none ∧ s.lane.line.head? = some k := by
    intro k hk hp
    have hp' : (Function.update r.holdOf id h k).place = .reading := by simpa [hk] using hp
    exact ⟨hu k hp', hi.first k (by simp [hp', Place.isFirst])⟩
  have hfirst : h.place.isFirst = true → s.lane.line.head? = some id :=
    fun hp => hi.first id (by simpa using hp)
  intro k hp
  by_cases hk : k = id
  · subst hk
    rw [Function.update_self] at hp
    cases hm with
    | join => exact nomatch hp
    | leave => exact nomatch hp
    | read waiting first => exact (Lane.standing_eq_reading.mp first).2
    | grant => exact nomatch hp
    | learn => exact nomatch hp
    | rewind waiting => exact nomatch waiting.symm.trans hp
    | resync waiting => exact nomatch waiting.symm.trans hp
    | reserve => exact hown hp
    | release => exact hown hp
    | enroll => exact hown hp
    | record => exact hown hp
    | close => exact hown hp
    | forget => exact nomatch hp
    | finish => exact nomatch hp
    | attach => exact hown hp
    | letGo => exact hown hp
  · rw [Function.update_of_ne hk] at hp
    obtain ⟨hnext, hhead⟩ := hother k hk hp
    have halone : h.place.isFirst ≠ true := fun hf =>
      hk (Option.some.inj (hhead.symm.trans (hfirst hf)))
    cases hm with
    | learn reading => exact absurd (by rw [reading]; rfl) halone
    | rewind => simp [Shared.rewind, Shared.forget, Lane.rewind, hnext]
    | resync => rfl
    | finish now row held granted => exact absurd (by rw [granted]; rfl) halone
    | _ => exact hnext

theorem run_readsUnknown (config : Config) (signer : Signer) (es : List Event) :
    ReadsUnknown ((idle config signer).after es).shared ((idle config signer).after es).holdOf :=
  run_keeps (P := fun _ => ReadsUnknown) ⟨idle_inLine, fun _ _ => rfl⟩ (fun _ _ _ _ hi => hi)
    (fun _ _ id _ _ => ReadsUnknown.kept _ _ id _) (throughout_trivial _ es)

end ComputeRelay
