import ComputeRelay.Proofs.Line

/-! Reservations. As long as nobody forgets the id that a call has reserved, the reserved ids are
those of the calls past their reservation and those of the pending pairs: each has one owner. -/

namespace ComputeRelay

open Relay

structure Owned (s : Shared) (f : CallId → Hold) : Prop where
  mem_iff : ∀ key, key ∈ s.reserved ↔
    (∃ k, (f k).reserved? = some key) ∨ key ∈ Table.keys s.pending
  unique : ∀ key k k', (f k).reserved? = some key → (f k').reserved? = some key → k = k'
  apart : ∀ key k, (f k).reserved? = some key → key ∉ Table.keys s.pending

/-- The same with one call singled out, which owns `own`. -/
structure OwnedBeside (s : Shared) (f : CallId → Hold) (id : CallId) (own : Option Hash) :
    Prop where
  mem_iff : ∀ key, key ∈ s.reserved ↔
    own = some key ∨ (∃ k, k ≠ id ∧ (f k).reserved? = some key) ∨ key ∈ Table.keys s.pending
  alone : ∀ key k, own = some key → k ≠ id → (f k).reserved? ≠ some key
  unique : ∀ key k k', k ≠ id → k' ≠ id → (f k).reserved? = some key →
    (f k').reserved? = some key → k = k'
  apart_own : ∀ key, own = some key → key ∉ Table.keys s.pending
  apart : ∀ key k, k ≠ id → (f k).reserved? = some key → key ∉ Table.keys s.pending

variable {s s' : Shared} {f : CallId → Hold} {id : CallId} {h h' : Hold} {own : Option Hash}
  {key : Hash}

theorem owned_update_iff :
    Owned s (Function.update f id h) ↔ OwnedBeside s f id h.reserved? := by
  have hexists : ∀ key, (∃ k, (Function.update f id h k).reserved? = some key) ↔
      h.reserved? = some key ∨ ∃ k, k ≠ id ∧ (f k).reserved? = some key := by
    intro key
    simp only [hold_update_iff Hold.reserved?, exists_or, exists_eq_left]
  constructor
  · rintro ⟨hmem, hunique, hapart⟩
    simp only [hold_update_iff Hold.reserved?] at hunique hapart
    refine ⟨?_, ?_, ?_, ?_, ?_⟩
    · intro key
      rw [hmem, hexists, or_assoc]
    · intro key k hown hk hother
      exact hk (hunique key k id (.inr ⟨hk, hother⟩) (.inl ⟨rfl, hown⟩))
    · intro key k k' hk hk' h1 h2
      exact hunique key k k' (.inr ⟨hk, h1⟩) (.inr ⟨hk', h2⟩)
    · intro key hown
      exact hapart key id (.inl ⟨rfl, hown⟩)
    · intro key k hk hother
      exact hapart key k (.inr ⟨hk, hother⟩)
  · rintro ⟨hmem, halone, hunique, hapartOwn, hapart⟩
    refine ⟨?_, ?_, ?_⟩
    · intro key
      rw [hmem, hexists, or_assoc]
    · intro key k k' hk hk'
      rw [hold_update_iff Hold.reserved?] at hk hk'
      rcases hk with ⟨rfl, hown⟩ | ⟨hk, h1⟩
      · rcases hk' with ⟨rfl, -⟩ | ⟨hk', h2⟩
        · rfl
        · exact absurd h2 (halone key k' hown hk')
      · rcases hk' with ⟨rfl, hown⟩ | ⟨hk', h2⟩
        · exact absurd h1 (halone key k hown hk)
        · exact hunique key k k' hk hk' h1 h2
    · intro key k hk
      rcases (hold_update_iff Hold.reserved?).mp hk with ⟨-, hown⟩ | ⟨hk, hother⟩
      · exact hapartOwn key hown
      · exact hapart key k hk hother

namespace OwnedBeside

theorem congr (ho : OwnedBeside s f id own) (hreserved : s'.reserved = s.reserved)
    (hkeys : ∀ key, key ∈ Table.keys s'.pending ↔ key ∈ Table.keys s.pending) :
    OwnedBeside s' f id own := by
  obtain ⟨hmem, halone, hunique, hapartOwn, hapart⟩ := ho
  simp only [← hreserved, ← hkeys] at hmem hapartOwn hapart
  exact ⟨hmem, halone, hunique, hapartOwn, hapart⟩

theorem forget (ho : OwnedBeside s f id own) {requestIds : List Hash}
    (hown : ∀ key ∈ requestIds, own ≠ some key)
    (hfree : ∀ key ∈ requestIds, ∀ k, k ≠ id → (f k).reserved? ≠ some key) :
    OwnedBeside (s.forget requestIds) f id own := by
  refine ⟨?_, ho.alone, ho.unique, ?_, ?_⟩
  · intro key
    simp only [Shared.mem_reserved_forget, Shared.mem_keys_forget, ho.mem_iff]
    constructor
    · rintro ⟨hin | hin | hin, hout⟩
      · exact .inl hin
      · exact .inr (.inl hin)
      · exact .inr (.inr ⟨hin, hout⟩)
    · rintro (hin | ⟨k, hk, hin⟩ | ⟨hin, hout⟩)
      · exact ⟨.inl hin, fun hmem => hown key hmem hin⟩
      · exact ⟨.inr (.inl ⟨k, hk, hin⟩), fun hmem => hfree key hmem k hk hin⟩
      · exact ⟨.inr (.inr hin), hout⟩
  · intro key hin hmem
    exact ho.apart_own key hin (Shared.mem_keys_forget.mp hmem).1
  · intro key k hk hin hmem
    exact ho.apart key k hk hin (Shared.mem_keys_forget.mp hmem).1

theorem rewind (ho : OwnedBeside s f id own) (cutoff : Nat) :
    OwnedBeside (s.rewind cutoff) f id own := by
  have ho' : OwnedBeside { s with lane := s.lane.rewind (BitVec.ofNat 256 cutoff) } f id own :=
    ho.congr rfl fun _ => Iff.rfl
  refine ho'.forget ?_ ?_
  · intro key hin hown
    exact ho.apart_own key hown (s.above_subset cutoff hin)
  · intro key hin k hk hown
    exact ho.apart key k hk hown (s.above_subset cutoff hin)

theorem reserve (ho : OwnedBeside s f id none) (new : key ∉ s.reserved) :
    OwnedBeside { s with reserved := s.reserved ++ [key] } f id (some key) := by
  rw [ho.mem_iff, not_or, not_or, not_exists] at new
  obtain ⟨-, hothers, hpending⟩ := new
  refine ⟨?_, ?_, ho.unique, ?_, ho.apart⟩
  · intro key'
    simp only [List.mem_append, List.mem_singleton, ho.mem_iff, reduceCtorEq, false_or,
      Option.some.injEq]
    rw [or_comm, eq_comm]
  · rintro key' k hown hk hother
    obtain rfl := Option.some.inj hown
    exact hothers k ⟨hk, hother⟩
  · intro key' hown
    obtain rfl := Option.some.inj hown
    exact hpending

theorem release (ho : OwnedBeside s f id (some key)) :
    OwnedBeside { s with reserved := s.reserved.filter fun k => !List.contains [key] k } f id
      none := by
  refine ⟨?_, nofun, ho.unique, nofun, ho.apart⟩
  intro key'
  simp only [List.mem_filter, ho.mem_iff, List.contains_eq_mem, List.mem_singleton,
    Bool.not_eq_true', decide_eq_false_iff_not, reduceCtorEq, false_or, Option.some.injEq]
  constructor
  · rintro ⟨heq | hin, hne⟩
    · exact absurd heq.symm hne
    · exact hin
  · intro hin
    refine ⟨.inr hin, ?_⟩
    rintro rfl
    rcases hin with ⟨k, hk, hother⟩ | hpending
    · exact ho.alone key' k rfl hk hother
    · exact ho.apart_own key' rfl hpending

theorem finish (ho : OwnedBeside s f id (some key)) (entry : PendingPair) {lane : Lane} :
    OwnedBeside { s with lane, pending := Table.insert s.pending key entry } f id none := by
  refine ⟨?_, nofun, ho.unique, nofun, ?_⟩
  · intro key'
    simp only [Table.mem_keys_insert, ho.mem_iff, reduceCtorEq, false_or, Option.some.injEq]
    rw [or_left_comm, eq_comm]
  · intro key' k hk hother hmem
    rcases Table.mem_keys_insert.mp hmem with rfl | hpending
    · exact ho.alone key' k rfl hk hother
    · exact ho.apart key' k hk hother hpending

end OwnedBeside

/-- The event forgets no id that a call in flight has reserved. -/
def SparesReserved (r : Relay) (e : Event) : Prop :=
  ∀ key ∈ r.forgets e, ∀ k, (r.holdOf k).reserved? ≠ some key

instance (r : Relay) (e : Event) : Decidable (SparesReserved r e) :=
  decidable_of_iff ((r.forgets e).all fun key =>
      (Table.keys r.calls).all fun k => (r.holdOf k).reserved? != some key) <| by
    simp only [List.all_eq_true, bne_iff_ne]
    constructor
    · intro h key hin k hk
      obtain ⟨stage, hs, -⟩ := holdOf_reserved?_eq_some.mp hk
      exact h key hin k (Table.mem_keys_iff.mpr ⟨stage, hs⟩) hk
    · exact fun h key hin k _ => h key hin k

theorem Owned.kept {r : Relay} {e : Event} {id : CallId} {log : List Event}
    (spares : SparesReserved r e) : KeptByMoves r e id log Owned := by
  intro s s' h h' hm ho
  rw [owned_update_iff] at ho ⊢
  cases hm with
  | join outside => exact ho.congr rfl fun _ => Iff.rfl
  | leave => exact ho.congr rfl fun _ => Iff.rfl
  | read waiting first => exact ho
  | grant waiting first => exact ho
  | learn reading taught untouched => exact ho.congr rfl fun _ => Iff.rfl
  | rewind waiting first fits => exact ho.rewind _
  | resync waiting first => exact ho.congr rfl fun _ => Iff.rfl
  | reserve row free new =>
    rw [free] at ho
    exact ho.reserve new
  | release held =>
    rw [held] at ho
    exact ho.release
  | enroll free new => exact ho.congr rfl fun _ => Iff.rfl
  | record row => exact ho.congr rfl fun _ => Iff.rfl
  | close row free => exact ho.congr rfl fun _ => Iff.rfl
  | forget => exact ho.forget nofun fun key hin k _ => spares key hin k
  | finish now row held granted before backed =>
    rw [held] at ho
    exact ho.finish _
  | @attach _ _ key entry _ _ stored accepted =>
    refine ho.congr rfl ?_
    intro key'
    have hin : key ∈ Table.keys s.pending := List.mem_map.mpr ⟨_, stored, rfl⟩
    rw [Table.mem_keys_insert]
    exact ⟨fun hk => hk.elim (fun heq => heq ▸ hin) fun hk => hk, .inr⟩
  | letGo row free gone => exact ho

theorem idle_owned : Owned {} fun _ => {} :=
  ⟨by simp [Table.keys], by simp, by simp⟩

theorem run_owned {config : Config} {signer : Signer} {es : List Event}
    (h : Throughout SparesReserved (idle config signer) es) :
    Owned ((idle config signer).after es).shared ((idle config signer).after es).holdOf :=
  run_keeps (P := fun _ => Owned) idle_owned (fun _ _ _ _ ho => ho)
    (fun _ _ _ spares _ => Owned.kept spares) h

end ComputeRelay
