import ComputeRelay.Proofs.Answerable
import ComputeRelay.Proofs.Histories
import ComputeRelay.Proofs.Reservations

/-! The rows of active requests. As long as nobody forgets the id of a request in flight, each row
belongs to the one call that works on its request or to the pending pair that the call finished,
and shows the last state of the request. -/

namespace ComputeRelay

open Relay

/-- Every row has one owner, apart from the rows that abandoned calls have left behind. -/
structure Rows (gone : Hash → Prop) (s : Shared) (f : CallId → Hold) : Prop where
  keys : (Table.keys s.pending).Nodup
  held : ∀ key state k, (f k).row? = some (key, state) → Table.get? s.active key = some state
  unique : ∀ key state state' k k', (f k).row? = some (key, state) →
    (f k').row? = some (key, state') → k = k'
  stored : ∀ key entry, Table.get? s.pending key = some entry →
    Table.get? s.active key = some entry.pair.endState ∧ entry.pair.requestId = key
  apart : ∀ key state k, (f k).row? = some (key, state) → Table.get? s.pending key = none
  owned : ∀ key state, Table.get? s.active key = some state →
    gone key ∨ (∃ k state, (f k).row? = some (key, state)) ∨
      ∃ entry, Table.get? s.pending key = some entry

/-- The same with one call singled out, which owns the row `own`. -/
structure RowsBeside (gone : Hash → Prop) (s : Shared) (f : CallId → Hold) (id : CallId)
    (own : Option (Hash × RequestState)) : Prop where
  keys : (Table.keys s.pending).Nodup
  held_own : ∀ key state, own = some (key, state) → Table.get? s.active key = some state
  held : ∀ key state k, k ≠ id → (f k).row? = some (key, state) →
    Table.get? s.active key = some state
  alone : ∀ key state state' k, own = some (key, state) → k ≠ id →
    (f k).row? ≠ some (key, state')
  unique : ∀ key state state' k k', k ≠ id → k' ≠ id → (f k).row? = some (key, state) →
    (f k').row? = some (key, state') → k = k'
  stored : ∀ key entry, Table.get? s.pending key = some entry →
    Table.get? s.active key = some entry.pair.endState ∧ entry.pair.requestId = key
  apart_own : ∀ key state, own = some (key, state) → Table.get? s.pending key = none
  apart : ∀ key state k, k ≠ id → (f k).row? = some (key, state) →
    Table.get? s.pending key = none
  owned : ∀ key state, Table.get? s.active key = some state →
    gone key ∨ (∃ state, own = some (key, state)) ∨
      (∃ k state, k ≠ id ∧ (f k).row? = some (key, state)) ∨
        ∃ entry, Table.get? s.pending key = some entry

variable {gone : Hash → Prop} {s s' : Shared} {f : CallId → Hold} {id : CallId} {h h' : Hold}
  {own : Option (Hash × RequestState)} {key : Hash} {state : RequestState}

theorem rows_update_iff :
    Rows gone s (Function.update f id h) ↔ RowsBeside gone s f id h.row? := by
  constructor
  · rintro ⟨hkeys, hheld, hunique, hstored, hapart, howned⟩
    simp only [hold_update_iff Hold.row?] at hheld hunique hapart howned
    refine ⟨hkeys, ?_, ?_, ?_, ?_, hstored, ?_, ?_, ?_⟩
    · intro key state hown
      exact hheld key state id (.inl ⟨rfl, hown⟩)
    · intro key state k hk hother
      exact hheld key state k (.inr ⟨hk, hother⟩)
    · intro key state state' k hown hk hother
      exact hk (hunique key state' state k id (.inr ⟨hk, hother⟩) (.inl ⟨rfl, hown⟩))
    · intro key state state' k k' hk hk' h1 h2
      exact hunique key state state' k k' (.inr ⟨hk, h1⟩) (.inr ⟨hk', h2⟩)
    · intro key state hown
      exact hapart key state id (.inl ⟨rfl, hown⟩)
    · intro key state k hk hother
      exact hapart key state k (.inr ⟨hk, hother⟩)
    · intro key state hactive
      rcases howned key state hactive with hgone | ⟨k, st, ⟨-, hown⟩ | hother⟩ | hpending
      · exact .inl hgone
      · exact .inr (.inl ⟨st, hown⟩)
      · exact .inr (.inr (.inl ⟨k, st, hother⟩))
      · exact .inr (.inr (.inr hpending))
  · rintro ⟨hkeys, hheldOwn, hheld, halone, hunique, hstored, hapartOwn, hapart, howned⟩
    refine ⟨hkeys, ?_, ?_, hstored, ?_, ?_⟩
    · intro key state k hk
      rcases (hold_update_iff Hold.row?).mp hk with ⟨-, hown⟩ | ⟨hk, hother⟩
      · exact hheldOwn key state hown
      · exact hheld key state k hk hother
    · intro key state state' k k' hk hk'
      rcases (hold_update_iff Hold.row?).mp hk with ⟨rfl, hown⟩ | ⟨hk, h1⟩
      · rcases (hold_update_iff Hold.row?).mp hk' with ⟨rfl, -⟩ | ⟨hk', h2⟩
        · rfl
        · exact absurd h2 (halone key state state' k' hown hk')
      · rcases (hold_update_iff Hold.row?).mp hk' with ⟨rfl, hown⟩ | ⟨hk', h2⟩
        · exact absurd h1 (halone key state' state k hown hk)
        · exact hunique key state state' k k' hk hk' h1 h2
    · intro key state k hk
      rcases (hold_update_iff Hold.row?).mp hk with ⟨-, hown⟩ | ⟨hk, hother⟩
      · exact hapartOwn key state hown
      · exact hapart key state k hk hother
    · intro key state hactive
      rcases howned key state hactive with hgone | ⟨st, hown⟩ | ⟨k, st, hother⟩ | hpending
      · exact .inl hgone
      · exact .inr (.inl ⟨id, st, (hold_update_iff Hold.row?).mpr (.inl ⟨rfl, hown⟩)⟩)
      · exact .inr (.inl ⟨k, st, (hold_update_iff Hold.row?).mpr (.inr hother)⟩)
      · exact .inr (.inr hpending)

theorem Rows.mono {gone' : Hash → Prop} (hgone : ∀ key, gone key → gone' key)
    (hr : Rows gone s f) : Rows gone' s f :=
  { hr with owned := fun key state ha => (hr.owned key state ha).imp_left (hgone key) }

namespace RowsBeside

theorem congr (hr : RowsBeside gone s f id own) (hactive : s'.active = s.active)
    (hpending : s'.pending = s.pending) : RowsBeside gone s' f id own := by
  obtain ⟨hkeys, hheldOwn, hheld, halone, hunique, hstored, hapartOwn, hapart, howned⟩ := hr
  simp only [← hactive, ← hpending] at hkeys hheldOwn hheld hstored hapartOwn hapart howned
  exact ⟨hkeys, hheldOwn, hheld, halone, hunique, hstored, hapartOwn, hapart, howned⟩

theorem enroll (hr : RowsBeside gone s f id none) (new : Table.get? s.active key = none) :
    RowsBeside gone { s with active := Table.insert s.active key state } f id
      (some (key, state)) := by
  have hfree : Table.get? s.pending key = none := by
    rw [Option.eq_none_iff_forall_ne_some]
    intro entry hentry
    simp [(hr.stored key entry hentry).1] at new
  have hother : ∀ key' st k, k ≠ id → (f k).row? = some (key', st) → key ≠ key' := by
    rintro key' st k hk hrow rfl
    simp [hr.held key st k hk hrow] at new
  refine ⟨hr.keys, ?_, ?_, ?_, hr.unique, ?_, ?_, hr.apart, ?_⟩
  · rintro key' st hown
    cases hown
    simp [Table.get?_insert]
  · intro key' st k hk hrow
    simp only [Table.get?_insert, if_neg (hother key' st k hk hrow)]
    exact hr.held key' st k hk hrow
  · rintro key' st st' k hown hk hrow
    cases hown
    exact hother key st' k hk hrow rfl
  · intro key' entry hentry
    have hne : key ≠ key' := by
      rintro rfl
      simp [hfree] at hentry
    simp only [Table.get?_insert, if_neg hne]
    exact hr.stored key' entry hentry
  · rintro key' st hown
    cases hown
    exact hfree
  · intro key' st hactive
    by_cases heq : key = key'
    · exact .inr (.inl ⟨state, by rw [heq]⟩)
    · simp only [Table.get?_insert, if_neg heq] at hactive
      rcases hr.owned key' st hactive with hgone | ⟨st', hown⟩ | hrest
      · exact .inl hgone
      · cases hown
      · exact .inr (.inr hrest)

theorem close (hr : RowsBeside gone s f id (some (key, state))) :
    RowsBeside gone { s with active := Table.erase s.active key } f id none := by
  have hother : ∀ key' st k, k ≠ id → (f k).row? = some (key', st) → key ≠ key' := by
    rintro key' st k hk hrow rfl
    exact hr.alone key state st k rfl hk hrow
  refine ⟨hr.keys, nofun, ?_, nofun, hr.unique, ?_, nofun, hr.apart, ?_⟩
  · intro key' st k hk hrow
    simp only [Table.get?_erase, if_neg (hother key' st k hk hrow)]
    exact hr.held key' st k hk hrow
  · intro key' entry hentry
    have hne : key ≠ key' := by
      rintro rfl
      simp [hr.apart_own key state rfl] at hentry
    simp only [Table.get?_erase, if_neg hne]
    exact hr.stored key' entry hentry
  · intro key' st hactive
    by_cases heq : key = key'
    · simp [Table.get?_erase, heq] at hactive
    · simp only [Table.get?_erase, if_neg heq] at hactive
      rcases hr.owned key' st hactive with hgone | ⟨st', hown⟩ | hrest
      · exact .inl hgone
      · exact absurd (congrArg Prod.fst (Option.some.inj hown)) heq
      · exact .inr (.inr hrest)

theorem record (hr : RowsBeside gone s f id (some (key, state))) (next : RequestState) :
    RowsBeside gone { s with active := Table.insert s.active key next } f id
      (some (key, next)) := by
  -- as if the row were given up and a new one made
  have hc := hr.close
  have hnew : Table.get? (Table.erase s.active key) key = none := by simp [Table.get?_erase]
  have he : RowsBeside gone { s with active := Table.insert (Table.erase s.active key) key next } f
      id (some (key, next)) := hc.enroll hnew
  have hsame : ∀ key', Table.get? (Table.insert (Table.erase s.active key) key next) key' =
      Table.get? (Table.insert s.active key next) key' := by
    intro key'
    by_cases heq : key = key' <;> simp [Table.get?_insert, Table.get?_erase, heq]
  obtain ⟨hkeys, hheldOwn, hheld, halone, hunique, hstored, hapartOwn, hapart, howned⟩ := he
  simp only [hsame] at hheldOwn hheld hstored howned
  exact ⟨hkeys, hheldOwn, hheld, halone, hunique, hstored, hapartOwn, hapart, howned⟩

theorem forget (hr : RowsBeside gone s f id own) {requestIds : List Hash}
    (hown : ∀ key ∈ requestIds, ∀ state, own ≠ some (key, state))
    (hfree : ∀ key ∈ requestIds, ∀ state k, k ≠ id → (f k).row? ≠ some (key, state)) :
    RowsBeside gone (s.forget requestIds) f id own := by
  refine ⟨?_, ?_, ?_, hr.alone, hr.unique, ?_, ?_, ?_, ?_⟩
  · exact Table.nodup_keys_filter _ hr.keys
  · intro key st hk
    have hout : key ∉ requestIds := fun hin => hown key hin st hk
    rw [Shared.get?_active_forget, if_neg hout]
    exact hr.held_own key st hk
  · intro key st k hk hrow
    have hout : key ∉ requestIds := fun hin => hfree key hin st k hk hrow
    rw [Shared.get?_active_forget, if_neg hout]
    exact hr.held key st k hk hrow
  · intro key entry hentry
    rw [Shared.get?_pending_forget] at hentry
    split at hentry
    · cases hentry
    · rename_i hout
      rw [Shared.get?_active_forget, if_neg hout]
      exact hr.stored key entry hentry
  · intro key st hk
    rw [Shared.get?_pending_forget, hr.apart_own key st hk, ite_self]
  · intro key st k hk hrow
    rw [Shared.get?_pending_forget, hr.apart key st k hk hrow, ite_self]
  · intro key st hactive
    rw [Shared.get?_active_forget] at hactive
    split at hactive
    · cases hactive
    · rename_i hout
      simp only [Shared.get?_pending_forget, if_neg hout]
      exact hr.owned key st hactive

theorem rewind (hr : RowsBeside gone s f id own) (cutoff : Nat) :
    RowsBeside gone (s.rewind cutoff) f id own := by
  have hpending : ∀ key ∈ s.above cutoff, ∃ entry, Table.get? s.pending key = some entry :=
    fun key hin => Table.mem_keys_iff.mp (s.above_subset cutoff hin)
  have hr' : RowsBeside gone { s with lane := s.lane.rewind (BitVec.ofNat 256 cutoff) } f id own :=
    hr.congr rfl rfl
  refine hr'.forget ?_ ?_
  · intro key hin st hown
    obtain ⟨entry, hentry⟩ := hpending key hin
    simp [hr.apart_own key st hown] at hentry
  · intro key hin st k hk hrow
    obtain ⟨entry, hentry⟩ := hpending key hin
    simp [hr.apart key st k hk hrow] at hentry

theorem finish {pair : Pair} {now : Nat} {lane : Lane}
    (hr : RowsBeside gone s f id (some (pair.requestId, pair.endState))) :
    RowsBeside gone { s with
      lane
      pending := Table.insert s.pending pair.requestId ⟨pair, now⟩ } f id none := by
  refine ⟨Table.nodup_keys_insert _ _ hr.keys, nofun, hr.held, nofun, hr.unique, ?_, nofun, ?_, ?_⟩
  · intro key entry hentry
    rw [Table.get?_insert] at hentry
    split at hentry
    · rename_i heq
      cases hentry
      exact ⟨heq ▸ hr.held_own _ _ rfl, heq⟩
    · exact hr.stored key entry hentry
  · intro key st k hk hrow
    have hne : pair.requestId ≠ key := by
      rintro rfl
      exact hr.alone _ pair.endState st k rfl hk hrow
    rw [Table.get?_insert, if_neg hne]
    exact hr.apart key st k hk hrow
  · intro key st hactive
    by_cases heq : pair.requestId = key
    · exact .inr (.inr (.inr ⟨⟨pair, now⟩, by simp [Table.get?_insert, heq]⟩))
    · simp only [Table.get?_insert, if_neg heq]
      rcases hr.owned key st hactive with hgone | ⟨st', hown⟩ | hrest
      · exact .inl hgone
      · exact absurd (congrArg Prod.fst (Option.some.inj hown)) heq
      · exact .inr (.inr hrest)

theorem attach (hr : RowsBeside gone s f id own) {entry : PendingPair} {pair : Pair}
    (stored : (key, entry) ∈ s.pending) (hstate : pair.endState = entry.pair.endState)
    (hid : pair.requestId = entry.pair.requestId) :
    RowsBeside gone { s with pending := Table.insert s.pending key { entry with pair } } f id
      own := by
  have hget := Table.get?_of_mem hr.keys stored
  have hnone : ∀ key', Table.get? s.pending key' = none →
      Table.get? (Table.insert s.pending key { entry with pair }) key' = none := by
    intro key' hfree
    have hne : key ≠ key' := by
      rintro rfl
      simp [hget] at hfree
    rw [Table.get?_insert, if_neg hne, hfree]
  refine ⟨Table.nodup_keys_insert _ _ hr.keys, hr.held_own, hr.held, hr.alone, hr.unique, ?_,
    fun key' st hown => hnone key' (hr.apart_own key' st hown),
    fun key' st k hk hrow => hnone key' (hr.apart key' st k hk hrow), ?_⟩
  · intro key' entry' hentry
    rw [Table.get?_insert] at hentry
    split at hentry
    · rename_i heq
      cases hentry
      rw [← heq]
      simpa [hstate, hid] using hr.stored key entry hget
    · exact hr.stored key' entry' hentry
  · intro key' st hactive
    rcases hr.owned key' st hactive with hgone | hown | hother | ⟨entry', hentry⟩
    · exact .inl hgone
    · exact .inr (.inl hown)
    · exact .inr (.inr (.inl hother))
    · refine .inr (.inr (.inr ?_))
      by_cases heq : key = key'
      · exact ⟨{ entry with pair }, by simp [Table.get?_insert, heq]⟩
      · exact ⟨entry', by simp [Table.get?_insert, heq, hentry]⟩

theorem letGo (hr : RowsBeside gone s f id (some (key, state))) (hgone : gone key) :
    RowsBeside gone s f id none := by
  refine ⟨hr.keys, nofun, hr.held, nofun, hr.unique, hr.stored, nofun, hr.apart, ?_⟩
  intro key' st hactive
  rcases hr.owned key' st hactive with hg | ⟨st', hown⟩ | hrest
  · exact .inl hg
  · cases hown
    exact .inl hgone
  · exact .inr (.inr hrest)

end RowsBeside

/-- The event forgets no id of a request in flight. -/
def SparesInFlight (r : Relay) (e : Event) : Prop :=
  ∀ key ∈ r.forgets e, ∀ k state, (r.holdOf k).row? ≠ some (key, state)

instance (r : Relay) (e : Event) : Decidable (SparesInFlight r e) :=
  decidable_of_iff ((r.forgets e).all fun key =>
      (Table.keys r.calls).all fun k => (r.holdOf k).row?.map (·.1) != some key) <| by
    simp only [List.all_eq_true, bne_iff_ne]
    constructor
    · intro h key hin k state hk
      obtain ⟨stage, hs, -⟩ := holdOf_row?_eq_some.mp hk
      exact h key hin k (Table.mem_keys_iff.mpr ⟨stage, hs⟩) (by simp [hk])
    · intro h key hin k _ hk
      obtain ⟨⟨_, state⟩, hrow, rfl⟩ := Option.map_eq_some_iff.mp hk
      exact h _ hin k state hrow

theorem Rows.kept {r : Relay} {e : Event} {log : List Event} (spares : SparesInFlight r e)
    (hgone : ∀ key, r.letsGo? e = some key → gone key) :
    KeptByMoves r e id log (Rows gone) := by
  intro s s' h h' hm hr
  rw [rows_update_iff] at hr ⊢
  cases hm with
  | join outside => exact hr.congr rfl rfl
  | leave => exact hr.congr rfl rfl
  | read waiting first => exact hr
  | grant waiting first => exact hr
  | learn reading taught untouched => exact hr.congr rfl rfl
  | rewind waiting first fits => exact hr.rewind _
  | resync waiting first => exact hr.congr rfl rfl
  | reserve row free new => exact hr.congr rfl rfl
  | release held => exact hr.congr rfl rfl
  | enroll free new =>
    rw [free] at hr
    exact hr.enroll new
  | record row =>
    rw [row] at hr
    exact hr.record _
  | close row free =>
    rw [row] at hr
    exact hr.close
  | forget => exact hr.forget nofun fun key hin state k _ => spares key hin k state
  | finish now row held granted before backed =>
    rw [row] at hr
    exact hr.finish
  | @attach _ _ _ entry _ pair stored accepted =>
    obtain ⟨hpair, -⟩ := Pair.withSigned_spec accepted
    subst hpair
    exact hr.attach stored rfl rfl
  | letGo row free left_ =>
    rw [row] at hr
    exact hr.letGo (hgone _ left_)

/-- The ids whose calls were abandoned in a run while they worked on them. -/
def Relay.letGo (r : Relay) : List Event → List Hash
  | [] => []
  | e :: es => (r.letsGo? e).toList ++ (r.step e).1.letGo es

theorem letGo_eq_nil {es : List Event} (h : ∀ id, Event.abandon id ∉ es) (r : Relay) :
    r.letGo es = [] := by
  induction es generalizing r with
  | nil => rfl
  | cons e es ih =>
    have hnone : r.letsGo? e = none := by
      cases e with
      | abandon id => exact absurd List.mem_cons_self (h id)
      | start id job => rfl
      | turn id => rfl
      | reply id reply => rfl
      | timeout id => rfl
      | attach signed order => rfl
      | submitted requestIds => rfl
      | tick ms => rfl
    simp [Relay.letGo, hnone, ih fun id hin => h id (List.mem_cons_of_mem _ hin)]

theorem letGo_concat (r : Relay) (es : List Event) (e : Event) :
    r.letGo (es ++ [e]) = r.letGo es ++ ((r.after es).letsGo? e).toList := by
  induction es generalizing r with
  | nil => simp [Relay.letGo]
  | cons e' es ih => simp [Relay.letGo, ih, after_cons]

theorem run_rows {config : Config} {signer : Signer} {es : List Event}
    (h : Throughout SparesInFlight (idle config signer) es) :
    Rows (· ∈ (idle config signer).letGo es) ((idle config signer).after es).shared
      ((idle config signer).after es).holdOf := by
  refine run_keeps (P := fun es => Rows (· ∈ (idle config signer).letGo es)) ?_ ?_ ?_ h
  · exact ⟨List.nodup_nil, by simp, by simp, by simp [Table.get?], by simp,
      by simp [Table.get?]⟩
  · intro es e s f hr
    refine hr.mono ?_
    intro key hin
    rw [letGo_concat]
    exact List.mem_append_left _ hin
  · intro es e id spares _
    refine Rows.kept spares ?_
    intro key hgone
    rw [letGo_concat, hgone]
    exact List.mem_append_right _ (List.mem_singleton_self key)

theorem SparesInFlight.sparesReserved {r : Relay} {e : Event} (spares : SparesInFlight r e) :
    SparesReserved r e := by
  intro key hin k hr
  obtain ⟨c, hc, -, hid⟩ := holdOf_reserved?_iff.mp hr
  exact spares key hin k c.lifecycle.state (holdOf_row?_iff.mpr ⟨c, hc, hid, rfl⟩)

/-- The working sets agree: each row has one owner, a call in flight or a pending pair, and shows
the owner's last state, and each reservation has one too. Only rows of the ids `gone` may have been
left behind. -/
structure SetsAgree (gone : List Hash) (r : Relay) : Prop where
  row_iff : ∀ key, key ∉ gone → (key ∈ Table.keys r.active ↔
    (∃ k c, r.candidate? k = some c ∧ c.requestId = key) ∨ key ∈ Table.keys r.pending)
  not_pending : ∀ k c, r.candidate? k = some c → c.requestId ∉ Table.keys r.pending
  one_call : ∀ k k' c c', r.candidate? k = some c → r.candidate? k' = some c' →
    c.requestId = c'.requestId → k = k'
  call_state : ∀ k c, r.candidate? k = some c →
    Table.get? r.active c.requestId = c.lifecycle.history.getLast?
  pair_state : ∀ key entry, (key, entry) ∈ r.pending →
    Table.get? r.active key = some entry.pair.endState
  own_key : ∀ key entry, (key, entry) ∈ r.pending → entry.pair.requestId = key
  reserved_iff : ∀ key, key ∈ r.writer.reserved ↔ key ∈ Table.keys r.pending ∨
    ∃ k c, r.candidate? k = some c ∧ r.hasReserved k = true ∧ c.requestId = key

variable {config : Config} {signer : Signer} {es : List Event}

theorem run_setsAgree (spares : Throughout SparesInFlight (idle config signer) es) :
    SetsAgree ((idle config signer).letGo es) ((idle config signer).after es) := by
  have hrows := run_rows spares
  have howned := run_owned (spares.imp fun _ _ h => h.sparesReserved)
  refine ⟨?_, ?_, ?_, ?_, ?_, ?_, ?_⟩
  · intro key hkept
    constructor
    · intro hactive
      obtain ⟨state, hstate⟩ := Table.mem_keys_iff.mp hactive
      rcases hrows.owned key state hstate with hgone | ⟨k, st, hk⟩ | hpending
      · exact absurd hgone hkept
      · obtain ⟨c, hc, hid, -⟩ := holdOf_row?_iff.mp hk
        exact .inl ⟨k, c, hc, hid⟩
      · exact .inr (Table.mem_keys_iff.mpr hpending)
    · rintro (⟨k, c, hc, hid⟩ | hpending)
      · have hrow := holdOf_row?_iff.mpr ⟨c, hc, hid, rfl⟩
        exact Table.mem_keys_iff.mpr ⟨_, hrows.held _ _ k hrow⟩
      · obtain ⟨entry, hentry⟩ := Table.mem_keys_iff.mp hpending
        exact Table.mem_keys_iff.mpr ⟨_, (hrows.stored key entry hentry).1⟩
  · intro k c hc hpending
    obtain ⟨entry, hentry⟩ := Table.mem_keys_iff.mp hpending
    have hnone := hrows.apart _ _ k (holdOf_row?_iff.mpr ⟨c, hc, rfl, rfl⟩)
    exact nomatch hnone.symm.trans hentry
  · intro k k' c c' hc hc' heq
    exact hrows.unique _ _ _ k k' (holdOf_row?_iff.mpr ⟨c, hc, rfl, rfl⟩)
      (holdOf_row?_iff.mpr ⟨c', hc', heq.symm, rfl⟩)
  · intro k c hc
    rw [Lifecycle.getLast?_history]
    exact hrows.held _ _ k (holdOf_row?_iff.mpr ⟨c, hc, rfl, rfl⟩)
  · intro key entry hentry
    exact (hrows.stored key entry (Table.get?_of_mem hrows.keys hentry)).1
  · intro key entry hentry
    exact (hrows.stored key entry (Table.get?_of_mem hrows.keys hentry)).2
  · intro key
    have hmem := howned.mem_iff key
    simp only [holdOf_reserved?_iff] at hmem
    rw [or_comm]
    exact hmem

/-- In a run that forgets no id of a request in flight the working sets agree after every step,
apart from rows that abandoned calls have left behind; and a pair's row shows the state in which
the call that finished the pair has left its request. -/
theorem workingSets_agree (spares : Throughout SparesInFlight (idle config signer) es) :
    ((∀ id, .abandon id ∉ es) → SetsAgree [] ((idle config signer).after es)) ∧
      SetsAgree ((idle config signer).letGo es) ((idle config signer).after es) ∧
      ∀ es' e pair fee l, es = es' ++ [e] →
        (((idle config signer).after es').step e).2 = some (.paired pair fee l) →
        Table.get? ((idle config signer).after es).active pair.requestId =
          l.history.getLast? := by
  have hagree := run_setsAgree spares
  refine ⟨?_, hagree, ?_⟩
  · intro hkept
    rw [letGo_eq_nil hkept] at hagree
    exact hagree
  · rintro es' e pair fee l rfl hresult
    obtain ⟨id, -, hs⟩ := run_stepped config signer es' e
    obtain ⟨-, -, hpending, -, hend⟩ := hs.result _ hresult
    rw [← after_concat] at hpending
    rw [Lifecycle.getLast?_history, hend]
    exact hagree.pair_state _ _ (Table.mem_of_get? hpending)

/-- The working sets agree after a request is served and its pair is submitted. -/
theorem sample_sets_agree :
    SetsAgree [] ((idle Sample.config Sample.signer).after
      (Sample.first.served "a" 0 ++ [.submitted [Sample.firstKey]])) := by
  have spares : Throughout SparesInFlight (idle Sample.config Sample.signer)
      (Sample.first.served "a" 0 ++ [.submitted [Sample.firstKey]]) := by
    refine throughout_concat.mpr ⟨?_, ?_⟩
    · simp [Throughout, SparesInFlight, forgets, Answerable.served, Answerable.asked, finishing]
    · obtain ⟨write, hb⟩ := CacheWriter.exists_build
        (w := { config := Sample.config, signer := Sample.signer }) (fun _ => ⟨_, rfl⟩)
        Sample.first.op Sample.first.key Sample.first.response 0
      obtain ⟨pair, -, hserved⟩ := Answerable.after_served
        (Answerable.welcome_idle (a := Sample.first) Sample.config Sample.signer "a") rfl hb
        (by decide) (by decide)
      rw [hserved]
      rintro key - k state ⟨⟩
  exact (workingSets_agree spares).1 (by simp [Answerable.served, Answerable.asked, finishing])

end ComputeRelay
