import ComputeRelay.Proofs.Answerable
import ComputeRelay.Proofs.Reservations
import ComputeRelay.Proofs.Turnover

/-! The pending pairs carry the nonces right below the next one of the lane, without a gap, and in
the order of their age. So the oldest of them has the lowest nonce: once it has expired, all pairs
are given back and the lane goes on from where it started. -/

namespace ComputeRelay

open Relay

def PendingPair.nonce (entry : PendingPair) : Nat := entry.pair.write.nonce.toNat

/-- The nonces count up from `b` in the order in which the pairs came. -/
def CountsFrom (b : Nat) (t : Table Hash PendingPair) : Prop :=
  t.map (·.2.nonce) = List.range' b t.length

/-- The pairs of the ids are those of the lowest nonces. -/
def Lowest (t : Table Hash PendingPair) (requestIds : List Hash) : Prop :=
  (∀ key ∈ requestIds, key ∈ Table.keys t) ∧
    ∀ a ∈ t, ∀ b ∈ t, b.1 ∈ requestIds → a.2.nonce ≤ b.2.nonce → a.1 ∈ requestIds

structure Contiguous (now : Nat) (s : Stock) : Prop where
  unknown : s.next = none → s.pending = []
  counted : ∀ n, s.next = some n →
    ∃ b, CountsFrom b s.pending ∧ n.toNat = b + s.pending.length
  aged : s.pending.Pairwise fun a b => a.2.createdAt ≤ b.2.createdAt
  past : ∀ a ∈ s.pending, a.2.createdAt ≤ now

namespace CountsFrom

variable {b : Nat} {a : Hash × PendingPair} {t : Table Hash PendingPair}

theorem cons_iff : CountsFrom b (a :: t) ↔ a.2.nonce = b ∧ CountsFrom (b + 1) t := by
  simp [CountsFrom, List.range'_succ]

theorem concat (h : CountsFrom b t) (ha : a.2.nonce = b + t.length) : CountsFrom b (t ++ [a]) := by
  unfold CountsFrom at h ⊢
  simp [h, ha, List.range'_concat]

theorem le_of_mem (h : CountsFrom b t) (ha : a ∈ t) : b ≤ a.2.nonce ∧ a.2.nonce < b + t.length := by
  have hmem : a.2.nonce ∈ t.map (·.2.nonce) := List.mem_map_of_mem ha
  rw [h] at hmem
  exact List.mem_range'_1.mp hmem

theorem ascend (h : CountsFrom b t) : t.Pairwise fun x y => x.2.nonce < y.2.nonce := by
  have hlt : (t.map (·.2.nonce)).Pairwise (· < ·) := h ▸ List.pairwise_lt_range'
  exact List.pairwise_map.mp hlt

theorem filter (h : CountsFrom b t) {requestIds : List Hash}
    (hlow : ∀ a ∈ t, ∀ b ∈ t, b.1 ∈ requestIds → a.2.nonce ≤ b.2.nonce → a.1 ∈ requestIds) :
    ∃ b', CountsFrom b' (t.filter fun e => !requestIds.contains e.1) ∧
      b' + (t.filter fun e => !requestIds.contains e.1).length = b + t.length := by
  induction t generalizing b with
  | nil => exact ⟨b, rfl, rfl⟩
  | cons a t ih =>
    obtain ⟨hnonce, hrest⟩ := cons_iff.mp h
    by_cases hin : a.1 ∈ requestIds
    · have hlow' : ∀ x ∈ t, ∀ y ∈ t, y.1 ∈ requestIds → x.2.nonce ≤ y.2.nonce →
          x.1 ∈ requestIds := fun x hx y hy =>
        hlow x (List.mem_cons_of_mem _ hx) y (List.mem_cons_of_mem _ hy)
      obtain ⟨b', hcounts, hlast⟩ := ih hrest hlow'
      refine ⟨b', ?_, ?_⟩
      · simpa [hin] using hcounts
      · simp only [List.filter_cons, List.contains_eq_mem, hin, decide_true, Bool.not_true,
          Bool.false_eq_true, if_false, List.length_cons] at hlast ⊢
        omega
    · -- the first pair stays, so no later one is named
      have hall : ∀ e ∈ a :: t, (!requestIds.contains e.1) = true := by
        intro e he
        have hle : a.2.nonce ≤ e.2.nonce := hnonce ▸ (h.le_of_mem he).1
        have hout : e.1 ∉ requestIds := fun hmem =>
          hin (hlow a List.mem_cons_self e he hmem hle)
        simpa using hout
      rw [List.filter_eq_self.mpr hall]
      exact ⟨b, h, rfl⟩

end CountsFrom

theorem expired_antitone {r : Relay} {since : Nat} {a b : PendingPair}
    (hage : a.createdAt ≤ b.createdAt) (hb : r.expired since b = true) :
    r.expired since a = true := by
  simp only [Relay.expired, decide_eq_true_eq] at hb ⊢
  omega

namespace Contiguous

variable {now now' : Nat} {s : Stock} {r : Relay}

theorem later (hc : Contiguous now s) (h : now ≤ now') : Contiguous now' s :=
  ⟨hc.unknown, hc.counted, hc.aged, fun a ha => (hc.past a ha).trans h⟩

theorem fresh (now : Nat) (nonce : Word) : Contiguous now ⟨some nonce, []⟩ := by
  refine ⟨by simp, ?_, List.Pairwise.nil, by simp⟩
  intro n hn
  exact ⟨nonce.toNat, rfl, by rw [← Option.some.inj hn]; rfl⟩

theorem submit (hc : Contiguous now s) {requestIds : List Hash}
    (hlow : Lowest s.pending requestIds) :
    Contiguous now { s with pending := s.pending.filter fun e => !requestIds.contains e.1 } := by
  refine ⟨?_, ?_, hc.aged.filter _, fun a ha => hc.past a (List.mem_filter.mp ha).1⟩
  · intro hnone
    simp [hc.unknown hnone]
  · intro n hn
    obtain ⟨b, hcounts, hlast⟩ := hc.counted n hn
    obtain ⟨b', hcounts', hlast'⟩ := hcounts.filter hlow.2
    exact ⟨b', hcounts', hlast.trans hlast'.symm⟩

theorem finish (hc : Contiguous now s) {key : Hash} {pair : Pair}
    (hnext : s.next = some pair.write.nonce) (hnew : key ∉ Table.keys s.pending)
    (room : pair.write.nonce ≠ BitVec.allOnes 256) :
    Contiguous now
      ⟨some (pair.write.nonce + 1), Table.insert s.pending key ⟨pair, now⟩⟩ := by
  obtain ⟨b, hcounts, hlast⟩ := hc.counted _ hnext
  rw [Table.insert_of_not_mem hnew]
  refine ⟨by simp, ?_, ?_, ?_⟩
  · intro n hn
    refine ⟨b, hcounts.concat hlast, ?_⟩
    have hsucc : (pair.write.nonce + 1).toNat = pair.write.nonce.toNat + 1 := by
      have hlt := pair.write.nonce.isLt
      have hne : pair.write.nonce.toNat ≠ (BitVec.allOnes 256).toNat :=
        fun h => room (BitVec.eq_of_toNat_eq h)
      rw [BitVec.toNat_allOnes] at hne
      rw [BitVec.toNat_add]
      exact Nat.mod_eq_of_lt (by simp; omega)
    rw [← Option.some.inj hn, hsucc, hlast]
    simp [Nat.add_assoc]
  · rw [List.pairwise_append]
    refine ⟨hc.aged, List.pairwise_singleton _ _, ?_⟩
    intro a ha e he
    rw [List.mem_singleton.mp he]
    exact hc.past a ha
  · intro a ha
    rcases List.mem_append.mp ha with ha | ha
    · exact hc.past a ha
    · rw [List.mem_singleton.mp ha]

theorem attach (hc : Contiguous now s) (hkeys : (Table.keys s.pending).Nodup) {key : Hash}
    {entry : PendingPair} {pair : Pair} (stored : (key, entry) ∈ s.pending)
    (hwrite : pair.write = entry.pair.write) :
    Contiguous now { s with pending := Table.insert s.pending key { entry with pair } } := by
  have hsame : ∀ {β : Type} (g : Nat → Nat → β),
      (Table.insert s.pending key { entry with pair }).map (fun e => g e.2.nonce e.2.createdAt) =
        s.pending.map fun e => g e.2.nonce e.2.createdAt := by
    intro β g
    exact Table.map_insert _ hkeys stored (by simp [PendingPair.nonce, hwrite])
  have hlen : (Table.insert s.pending key { entry with pair }).length = s.pending.length := by
    simpa using congrArg List.length (hsame fun n _ => n)
  have htimes := hsame fun _ t => t
  refine ⟨?_, ?_, ?_, ?_⟩
  · intro hnone
    simp [hc.unknown hnone] at stored
  · intro n hn
    obtain ⟨b, hcounts, hlast⟩ := hc.counted n hn
    refine ⟨b, ?_, by rw [hlen]; exact hlast⟩
    rw [CountsFrom, hlen]
    exact (hsame fun n _ => n).trans hcounts
  · have haged : (s.pending.map fun e => e.2.createdAt).Pairwise (· ≤ ·) :=
      List.pairwise_map.mpr hc.aged
    rw [← htimes] at haged
    exact List.pairwise_map.mp haged
  · intro a ha
    have hmem : a.2.createdAt ∈ s.pending.map fun e => e.2.createdAt :=
      htimes ▸ List.mem_map_of_mem ha
    obtain ⟨a', ha', heq⟩ := List.mem_map.mp hmem
    exact heq ▸ hc.past a' ha'

theorem counted_of_mem (hc : Contiguous now s) {a : Hash × PendingPair} (ha : a ∈ s.pending) :
    ∃ n b, s.next = some n ∧ CountsFrom b s.pending ∧ n.toNat = b + s.pending.length := by
  cases hn : s.next with
  | none =>
    rw [hc.unknown hn] at ha
    exact absurd ha List.not_mem_nil
  | some n =>
    obtain ⟨b, hcounts, hlast⟩ := hc.counted n hn
    exact ⟨n, b, rfl, hcounts, hlast⟩

theorem older (hc : Contiguous now s) {a b : Hash × PendingPair} (ha : a ∈ s.pending)
    (hb : b ∈ s.pending) : a.2.nonce ≤ b.2.nonce → a.2.createdAt ≤ b.2.createdAt := by
  obtain ⟨-, first, -, hcounts, -⟩ := hc.counted_of_mem ha
  have hearly : s.pending.Pairwise fun x y =>
      x.2.nonce ≤ y.2.nonce → x.2.createdAt ≤ y.2.createdAt := by
    refine hc.aged.imp ?_
    intro x y hage _
    exact hage
  have hlate : s.pending.Pairwise fun x y =>
      y.2.nonce ≤ x.2.nonce → y.2.createdAt ≤ x.2.createdAt :=
    hcounts.ascend.imp fun hlt hle => absurd hlt (Nat.not_lt.mpr hle)
  exact hearly.forall_of_forall_of_flip (fun _ _ _ => le_rfl) hlate ha hb

theorem oldest_lowest (hc : Contiguous now r.stock) {since : Nat} {old : Hash × PendingPair}
    (ho : Oldest r since old) : ∀ e ∈ r.pending, old.2.nonce ≤ e.2.nonce := by
  obtain ⟨hstored, hpassed, hlowest⟩ := ho
  obtain ⟨-, b, -, hcounts, -⟩ := hc.counted_of_mem hstored
  have haged : r.pending.Pairwise fun a b => a.2.createdAt ≤ b.2.createdAt := hc.aged
  change CountsFrom b r.pending at hcounts
  -- the head of the list is at least as old, so it has expired as well
  cases hlist : r.pending with
  | nil => simp
  | cons head rest =>
    rw [hlist] at hcounts haged hstored
    have hhead : head ∈ r.pending := hlist ▸ List.mem_cons_self
    have hage : head.2.createdAt ≤ old.2.createdAt := by
      rcases List.mem_cons.mp hstored with rfl | hrest
      · exact le_rfl
      · exact (List.pairwise_cons.mp haged).1 old hrest
    have hfirst : old.2.nonce ≤ head.2.nonce :=
      hlowest head hhead (expired_antitone hage hpassed)
    intro e he
    have hmin := (hcounts.le_of_mem he).1
    have hb := (CountsFrom.cons_iff.mp hcounts).1
    omega

theorem above_oldest (hc : Contiguous now r.stock) {since : Nat} {old : Hash × PendingPair}
    (ho : Oldest r since old) :
    r.shared.above old.2.pair.write.nonce.toNat = Table.keys r.pending := by
  have hall : ∀ e ∈ r.pending, decide (old.2.pair.write.nonce.toNat ≤ e.2.pair.write.nonce.toNat) =
      true := fun e he => decide_eq_true (hc.oldest_lowest ho e he)
  show (r.pending.filter _).map _ = _
  rw [List.filter_eq_self.mpr hall]
  rfl

theorem rewind_oldest (hc : Contiguous now r.stock) {since : Nat} {old : Hash × PendingPair}
    (ho : Oldest r since old) :
    (r.shared.rewind old.2.pair.write.nonce.toNat).stock = ⟨some old.2.pair.write.nonce, []⟩ := by
  obtain ⟨n, b, hn, hcounts, hlast⟩ := hc.counted_of_mem ho.stored
  have hlt : old.2.pair.write.nonce.toNat < n.toNat := hlast ▸ (hcounts.le_of_mem ho.stored).2
  have hnext : r.writer.lane.next = some n := hn
  have hall := hc.above_oldest ho
  have hpending : (r.shared.rewind old.2.pair.write.nonce.toNat).pending = [] := by
    show r.pending.filter _ = []
    rw [List.filter_eq_nil_iff, hall]
    intro e he
    have hmem : e.1 ∈ Table.keys r.pending := List.mem_map_of_mem he
    simp [hmem]
  have hlane : (r.shared.rewind old.2.pair.write.nonce.toNat).lane.next =
      some old.2.pair.write.nonce := by
    show (r.writer.lane.rewind _).next = _
    simp [Lane.rewind, hnext, hlt]
  rw [Shared.stock, hpending, hlane]

end Contiguous

/-- The pending pairs are submitted from the lowest nonce on, and no bundle is dropped. -/
def InOrder (r : Relay) : Event → Prop
  | .start _ (.drop _) => False
  | .submitted requestIds => Lowest r.pending requestIds
  | _ => True

/-- No pair takes the last nonce. -/
def Roomy (r : Relay) (e : Event) : Prop :=
  ∀ pair fee l, (r.step e).2 = some (.paired pair fee l) →
    pair.write.nonce ≠ BitVec.allOnes 256

theorem InOrder.drops_eq {r : Relay} {e : Event} (ho : InOrder r e) (hu : Undropped r) :
    r.drops e = false := by
  refine hu.drops_eq fun id ids he => ?_
  rw [he] at ho
  exact ho

theorem InOrder.sparesReserved {r : Relay} {e : Event} (ho : InOrder r e) (hu : Undropped r)
    (howned : Owned r.shared r.holdOf) : SparesReserved r e := by
  intro key hin k hk
  have hdrops := ho.drops_eq hu
  cases e with
  | submitted requestIds => exact howned.apart key k hk (ho.1 key hin)
  | start id job =>
    cases job with
    | drop ids => exact ho
    | _ => simp [forgets] at hin
  | turn id =>
    simp only [forgets] at hin
    split at hin
    · rename_i ids hs
      simp [Relay.drops, hs, Stage.drops] at hdrops
    · simp at hin
  | _ => simp [forgets] at hin

variable {config : Config} {signer : Signer} {r : Relay} {e : Event}

theorem reading_of_teaches {nonce : Word} (h : r.teaches? e = some nonce) :
    ∃ id, (r.holdOf id).place = .reading := by
  unfold teaches? at h
  split at h
  · split at h
    · rename_i id _ _ _ _ hs
      exact ⟨id, by simp [holdOf, hs, Stage.hold, Drafting.place]⟩
    · cases h
  · cases h

theorem Finishes.holds {id : CallId} {c : Candidate} {answer : Answer} {prepared : Prepared}
    {outcome : Simulation} {pair : Pair} {fee : FeeAdjustment}
    (h : Finishes r e id c answer prepared outcome pair fee) :
    r.holdOf id = ⟨c.row?, some pair.requestId, .granted pair.write.nonce⟩ := by
  obtain ⟨-, -, rfl⟩ := Pair.create_eq_ok_iff.mp h.created
  simp [holdOf, h.found, Stage.hold]

theorem step_contiguous (hc : Contiguous r.now r.stock) (hu : Undropped r)
    (howned : Owned r.shared r.holdOf) (hline : ReadsUnknown r.shared r.holdOf)
    (hkeys : (Table.keys r.pending).Nodup) (ho : InOrder r e) (room : Roomy r e) :
    Contiguous (r.step e).1.now (r.step e).1.stock := by
  have hlater : r.now ≤ (r.step e).1.now := by
    rw [step_now]
    exact Nat.le_add_right _ _
  have hturn := step_turnover r e
  unfold Roomy at room
  generalize (r.step e).1.stock = s at hturn ⊢
  generalize (r.step e).2 = result? at hturn room
  refine Contiguous.later ?_ hlater
  cases hturn with
  | kept => exact hc
  | @learned _ nonce taught =>
    -- a nonce is read only while none is known, and then no pair is pending
    obtain ⟨id, hread⟩ := reading_of_teaches taught
    have hnil : r.pending = [] := hc.unknown (hline.unknown id hread)
    have hstock : { r.stock with next := some nonce } = (⟨some nonce, []⟩ : Stock) :=
      congrArg (Stock.mk (some nonce)) hnil
    rw [hstock]
    exact .fresh r.now nonce
  | expired oldest =>
    rw [hc.rewind_oldest oldest]
    exact .fresh r.now _
  | finished l finishes =>
    have hhold := finishes.holds
    have hnext := hline.inLine.known _ _ (congrArg Hold.place hhold)
    have hnew := howned.apart _ _ (congrArg Hold.reserved? hhold)
    exact hc.finish hnext hnew (room _ _ l rfl)
  | attached came stored accepted bound =>
    obtain ⟨hpair, -⟩ := Pair.withSigned_spec accepted
    exact hc.attach hkeys stored (by rw [hpair])
  | submitted came =>
    subst came
    exact hc.submit ho
  | dropped drops => cases drops.symm.trans (ho.drops_eq hu)

theorem idle_contiguous (config : Config) (signer : Signer) :
    Contiguous (idle config signer).now (idle config signer).stock := by
  refine ⟨fun _ => rfl, ?_, List.Pairwise.nil, ?_⟩
  · intro n hn
    cases hn
  · intro a ha
    cases ha

theorem run_undropped {es : List Event} (h : Throughout InOrder (idle config signer) es) :
    Undropped ((idle config signer).after es) ∧
      Throughout SparesReserved (idle config signer) es := by
  refine run_induction (P := fun es r => Undropped r ∧
    Throughout SparesReserved (idle config signer) es) ⟨?_, trivial⟩ ?_ h
  · intro id stage hs
    cases hs
  · rintro es e ⟨hu, hspares⟩ ho
    refine ⟨step_undropped hu (ho.drops_eq hu), ?_⟩
    exact throughout_concat.mpr ⟨hspares, ho.sparesReserved hu (run_owned hspares)⟩

theorem run_contiguous {es : List Event}
    (h : Throughout (fun r e => InOrder r e ∧ Roomy r e) (idle config signer) es) :
    Contiguous ((idle config signer).after es).now ((idle config signer).after es).stock := by
  refine (run_induction (P := fun es r => Throughout InOrder (idle config signer) es ∧
    Contiguous r.now r.stock) ⟨trivial, idle_contiguous config signer⟩ ?_ h).2
  rintro es e ⟨horder, hc⟩ ⟨ho, room⟩
  obtain ⟨hu, hspares⟩ := run_undropped horder
  have hkeys := run_nodup_keys config signer es
  refine ⟨throughout_concat.mpr ⟨horder, ho⟩, ?_⟩
  exact step_contiguous hc hu (run_owned hspares) (run_readsUnknown config signer es) hkeys ho room

/-- The nonces of the pending pairs end right below the next nonce of the lane, no younger pair has
a lower nonce, and pairs that are given back are all that are pending. -/
structure Gapless (r : Relay) : Prop where
  carried : ∀ n, r.writer.lane.next = some n → r.pending.length ≤ n.toNat ∧
    r.pendingPairs.map (·.write.nonce.toNat) =
      List.range' (n.toNat - r.pending.length) r.pending.length
  unknown : r.writer.lane.next = none → r.pending = []
  aged : ∀ a ∈ r.pending, ∀ b ∈ r.pending, a.2.nonce ≤ b.2.nonce → a.2.createdAt ≤ b.2.createdAt
  emptied : ∀ e, InOrder r e → (∀ requestIds, e ≠ .submitted requestIds) →
    ∀ key ∈ Table.keys r.pending, key ∉ Table.keys (r.step e).1.pending →
      (r.step e).1.pending = [] ∧ ∃ low ∈ r.pending, (∀ a ∈ r.pending, low.2.nonce ≤ a.2.nonce) ∧
        (r.step e).1.writer.lane.next = some low.2.pair.write.nonce
  released : ∀ e requestIds, InOrder r e → (r.step e).2 = some (.released requestIds) →
    requestIds = [] ∨ requestIds = Table.keys r.pending ∧ (r.step e).1.pending = []

theorem CountsFrom.pendingPairs {b : Nat} (h : CountsFrom b r.pending) :
    r.pendingPairs.map (·.write.nonce.toNat) = List.range' b r.pending.length := by
  have hsame : r.pendingPairs = r.pending.map fun e => e.2.pair := by
    refine List.mergeSort_of_pairwise (List.pairwise_map.mpr ?_)
    exact h.ascend.imp fun hlt => decide_eq_true (Nat.le_of_lt hlt)
  rw [hsame, List.map_map]
  exact h

variable {key : Hash} {requestIds : List Hash}

theorem Contiguous.emptied (hc : Contiguous r.now r.stock) (hdrops : r.drops e = false)
    (hkept : ∀ requestIds, e ≠ .submitted requestIds) (hin : key ∈ Table.keys r.pending)
    (hout : key ∉ Table.keys (r.step e).1.pending) :
    (r.step e).1.pending = [] ∧ ∃ low ∈ r.pending, (∀ a ∈ r.pending, low.2.nonce ≤ a.2.nonce) ∧
      (r.step e).1.writer.lane.next = some low.2.pair.write.nonce := by
  have hturn := step_turnover r e
  change key ∉ Table.keys (r.step e).1.stock.pending at hout
  change (r.step e).1.stock.pending = [] ∧ ∃ low ∈ r.pending,
    (∀ a ∈ r.pending, low.2.nonce ≤ a.2.nonce) ∧
      (r.step e).1.stock.next = some low.2.pair.write.nonce
  generalize (r.step e).1.stock = s at hturn hout ⊢
  generalize (r.step e).2 = result? at hturn
  cases hturn with
  | kept => exact absurd hin hout
  | learned => exact absurd hin hout
  | @expired _ _ old oldest =>
    rw [hc.rewind_oldest oldest]
    exact ⟨rfl, old, oldest.stored, hc.oldest_lowest oldest, rfl⟩
  | finished => exact absurd (Table.mem_keys_insert.mpr (.inr hin)) hout
  | attached => exact absurd (Table.mem_keys_insert.mpr (.inr hin)) hout
  | submitted came => exact absurd came (hkept _)
  | dropped drops => cases drops.symm.trans hdrops

theorem Contiguous.released (hc : Contiguous r.now r.stock) (hdrops : r.drops e = false)
    (hresult : (r.step e).2 = some (.released requestIds)) :
    requestIds = [] ∨ requestIds = Table.keys r.pending ∧ (r.step e).1.pending = [] := by
  have hturn := step_turnover r e
  change requestIds = [] ∨ requestIds = Table.keys r.pending ∧ (r.step e).1.stock.pending = []
  rw [hresult] at hturn
  generalize (r.step e).1.stock = s at hturn ⊢
  cases hturn with
  | kept quiet => exact .inl (List.isEmpty_iff.mp (quiet _ rfl))
  | learned taught quiet => exact .inl (List.isEmpty_iff.mp (quiet _ rfl))
  | expired oldest named =>
    rcases named _ rfl with ⟨err, herr⟩ | hall
    · cases herr
    · have hids := Result.released.inj hall
      rw [hc.above_oldest oldest] at hids
      rw [hc.rewind_oldest oldest]
      exact .inr ⟨hids, rfl⟩
  | dropped drops => cases drops.symm.trans hdrops

theorem pending_gapless {es : List Event}
    (h : Throughout (fun r e => InOrder r e ∧ Roomy r e) (idle config signer) es) :
    Gapless ((idle config signer).after es) := by
  have hc := run_contiguous h
  have hu := (run_undropped (h.imp fun _ _ hok => hok.1)).1
  refine ⟨?_, hc.unknown, ?_, ?_, ?_⟩
  · intro n hn
    obtain ⟨b, hcounts, hlast⟩ := hc.counted n hn
    have hlast' : n.toNat = b + ((idle config signer).after es).pending.length := hlast
    have hb : n.toNat - ((idle config signer).after es).pending.length = b := by omega
    rw [hb]
    exact ⟨by omega, CountsFrom.pendingPairs hcounts⟩
  · exact fun a ha b hb => hc.older ha hb
  · intro e ho hkept key hin hout
    exact hc.emptied (ho.drops_eq hu) hkept hin hout
  · intro e requestIds ho hresult
    exact hc.released (ho.drops_eq hu) hresult

theorem rewind_next_le {s : Shared} {cutoff : Nat} {n : Word}
    (h : (s.rewind cutoff).lane.next = some n) :
    ∃ old, s.lane.next = some old ∧ n.toNat ≤ old.toNat := by
  simp only [Shared.rewind, Shared.forget, Lane.rewind, Option.map_eq_some_iff] at h
  obtain ⟨old, hold, rfl⟩ := h
  refine ⟨old, hold, ?_⟩
  split
  · exact Nat.le_of_lt ‹_›
  · exact le_rfl

/-- The next nonce is at most as far above the nonces that the ledger tells as there are events. -/
theorem step_next_le (hu : Undropped r) (hline : InLine r.shared r.holdOf) (ho : InOrder r e)
    {bound : Nat} (htold : ∀ nonce, r.teaches? e = some nonce → nonce.toNat ≤ bound)
    (hnext : ∀ n, r.stock.next = some n → n.toNat ≤ bound) :
    ∀ n, (r.step e).1.stock.next = some n → n.toNat ≤ bound + 1 := by
  have hturn := step_turnover r e
  generalize (r.step e).1.stock = s at hturn ⊢
  generalize (r.step e).2 = result? at hturn
  intro n hn
  cases hturn with
  | kept => exact (hnext n hn).trans (Nat.le_succ _)
  | learned taught =>
    rw [← Option.some.inj hn]
    exact (htold _ taught).trans (Nat.le_succ _)
  | expired oldest =>
    obtain ⟨old, hold, hle⟩ := rewind_next_le hn
    exact (hle.trans (hnext old hold)).trans (Nat.le_succ _)
  | @finished _ _ _ _ _ pair _ l finishes =>
    have hbelow := hnext _ (hline.known _ _ (congrArg Hold.place finishes.holds))
    rw [← Option.some.inj hn, BitVec.toNat_add]
    refine (Nat.mod_le _ _).trans ?_
    exact Nat.add_le_add hbelow (by decide)
  | attached => exact (hnext n hn).trans (Nat.le_succ _)
  | submitted => exact (hnext n hn).trans (Nat.le_succ _)
  | dropped drops => cases drops.symm.trans (ho.drops_eq hu)

theorem run_next_le {es : List Event} (bound : Nat)
    (horder : Throughout InOrder (idle config signer) es)
    (htold : ∀ id nonce, Event.reply id (.nonce (.ok nonce)) ∈ es → nonce.toNat ≤ bound) :
    ∀ n, ((idle config signer).after es).stock.next = some n → n.toNat ≤ bound + es.length := by
  induction es using List.reverseRecOn with
  | nil =>
    intro n hn
    cases hn
  | append_singleton es e ih =>
    obtain ⟨horder', ho⟩ := throughout_concat.mp horder
    have hnext := ih horder' fun id nonce hin => htold id nonce (List.mem_append_left _ hin)
    rw [after_concat, List.length_append, List.length_singleton, ← Nat.add_assoc]
    refine step_next_le (run_undropped horder').1 (run_inLine config signer es) ho ?_ hnext
    intro nonce taught
    obtain ⟨id, rfl⟩ := event_of_teaches taught
    exact (htold id nonce (List.mem_append_right _ (List.mem_singleton_self _))).trans
      (Nat.le_add_right _ _)

/-- No call of a run is granted a nonce that is further above the nonces that the ledger tells than
the run is long. -/
theorem throughout_next_le {es : List Event} {bound limit : Nat}
    (horder : Throughout InOrder (idle config signer) es)
    (htold : ∀ id nonce, Event.reply id (.nonce (.ok nonce)) ∈ es → nonce.toNat ≤ bound)
    (hlimit : bound + es.length ≤ limit) :
    Throughout (fun r _ => InLine r.shared r.holdOf ∧
      ∀ n, r.stock.next = some n → n.toNat ≤ limit) (idle config signer) es := by
  induction es using List.reverseRecOn with
  | nil => trivial
  | append_singleton es e ih =>
    obtain ⟨horder', -⟩ := throughout_concat.mp horder
    have htold' : ∀ id nonce, Event.reply id (.nonce (.ok nonce)) ∈ es → nonce.toNat ≤ bound :=
      fun id nonce hin => htold id nonce (List.mem_append_left _ hin)
    rw [List.length_append] at hlimit
    refine throughout_concat.mpr ⟨ih horder' htold' (by omega), run_inLine config signer es, ?_⟩
    intro n hn
    exact (run_next_le bound horder' htold' n hn).trans (by omega)

/-- There is room if the ledger tells nonces that are further from the last one than the run is
long. -/
theorem throughout_roomy {es : List Event} (bound : Nat)
    (horder : Throughout InOrder (idle config signer) es)
    (htold : ∀ id nonce, Event.reply id (.nonce (.ok nonce)) ∈ es → nonce.toNat ≤ bound)
    (hroom : bound + es.length < 2 ^ 256 - 1) :
    Throughout (fun r e => InOrder r e ∧ Roomy r e) (idle config signer) es := by
  refine (horder.and (throughout_next_le horder htold le_rfl)).imp ?_
  rintro r e ⟨ho, hline, hnext⟩
  refine ⟨ho, ?_⟩
  intro pair fee l hresult hlast
  have hturn := step_turnover r e
  rw [hresult] at hturn
  obtain ⟨⟨id, c, answer, prepared, outcome, finishes⟩, -⟩ := hturn.finishes
  have hbelow := hnext _ (hline.known _ _ (congrArg Hold.place finishes.holds))
  rw [hlast, BitVec.toNat_allOnes] at hbelow
  omega

/-- A call that asks for expired pairs to be dropped drops them at once when nobody holds the lane,
and nothing is left pending behind an expired pair. -/
theorem Contiguous.expire (hc : Contiguous r.now r.stock) (id : CallId)
    (hunused : Table.get? r.calls id = none) (hfree : r.writer.lane.line = [])
    {old : Hash × PendingPair} (hold : old ∈ r.pending) (hexpired : r.expired r.now old.2 = true) :
    (r.step (.start id .expire)).1.pending = [] := by
  have hcall : Table.contains r.calls id = false := Table.contains_eq_false_iff.mpr hunused
  have hany : (r.pending.any fun e => r.expired r.now e.2) = true :=
    List.any_eq_true.mpr ⟨old, hold, hexpired⟩
  have hheld : (r.modifyLane (·.join id)).writer.lane.isHeldBy id = true := by
    simp [modifyLane, Lane.join, Lane.isHeldBy, Lane.holder?, hfree]
  simp only [step, hcall, Relay.begin, hany, hheld, if_true, Bool.false_eq_true, if_false]
  show ((r.modifyLane (·.join id)).clear id r.now).1.stock.pending = []
  rcases clear_spec r (f := (·.join id)) (fun _ => rfl) id r.now with
    ⟨hnone, -⟩ | ⟨old, oldest, hstock, -⟩
  · cases (hnone old hold).symm.trans hexpired
  · rw [hstock, hc.rewind_oldest oldest]

/-- The first of two pairs is submitted, and two minutes later the second has expired. -/
def Sample.outlived : List Event := both ++ [.submitted [firstKey], .tick 120000]

theorem Sample.after_outlived : ∃ q : Pair, q.write.nonce = 1 ∧
    (idle Sample.config Sample.signer).after outlived =
      { idle Sample.config Sample.signer with
        writer := {
          config := Sample.config, signer := Sample.signer, reserved := [secondKey],
          lane := ⟨some 2, []⟩ }
        now := 180000
        active := [(secondKey, .completed)]
        pending := [(secondKey, ⟨q, 60000⟩)] } := by
  obtain ⟨p, q, -, hq, hboth⟩ := after_both
  have hne : secondKey ≠ firstKey := by decide
  let r₁ : Relay := {
    writer := {
      config := Sample.config, signer := Sample.signer, reserved := [secondKey],
      lane := ⟨some 2, []⟩ }
    now := 60000
    active := [(secondKey, .completed)], pending := [(secondKey, ⟨q, 60000⟩)] }
  have h₁ : (((idle Sample.config Sample.signer).after both).step (.submitted [firstKey])).1 =
      r₁ := by
    rw [hboth]
    simp [step, markSubmitted, Relay.forget, CacheWriter.release, hne, r₁, idle]
  refine ⟨q, hq, ?_⟩
  rw [outlived, after_append, after_cons, h₁, after_cons,
    step_tick rfl (by rfl : 60000 + 120000 = 180000)]
  rfl

theorem Sample.both_inOrder : Throughout InOrder (idle Sample.config Sample.signer) both := by
  simp [Throughout, InOrder, both, Answerable.served, Answerable.servedNext, Answerable.asked,
    finishing]

theorem Sample.outlived_inOrder : Throughout InOrder (idle Sample.config Sample.signer)
    (outlived ++ [.start "x" .expire]) := by
  obtain ⟨p, q, hp, hq, hr⟩ := after_both
  have hlowest : Lowest ((idle Sample.config Sample.signer).after both).pending [firstKey] := by
    rw [hr]
    refine ⟨by simp [Table.keys], ?_⟩
    intro a ha b hb hin hle
    simp only [List.mem_cons, List.not_mem_nil, or_false] at ha hb hin
    rcases ha with rfl | rfl
    · exact List.mem_singleton_self _
    · rcases hb with rfl | rfl
      · simp [PendingPair.nonce, hp, hq] at hle
      · exact List.mem_singleton.mpr hin
  rw [outlived, List.append_assoc, throughout_append]
  exact ⟨both_inOrder, hlowest, trivial, trivial, trivial⟩

theorem Sample.outlived_roomy : Throughout (fun r e => InOrder r e ∧ Roomy r e)
    (idle Sample.config Sample.signer) (outlived ++ [.start "x" .expire]) := by
  refine throughout_roomy 0 outlived_inOrder ?_ (by decide)
  simp [outlived, both, Answerable.served, Answerable.servedNext, Answerable.asked, finishing]

theorem Sample.outlived_expires :
    ((idle Sample.config Sample.signer).after (outlived ++ [.start "x" .expire])).pending = [] := by
  obtain ⟨houtlived, -⟩ := throughout_concat.mp outlived_roomy
  obtain ⟨q, -, hr⟩ := after_outlived
  have hstored : (secondKey, (⟨q, 60000⟩ : PendingPair)) ∈
      ((idle Sample.config Sample.signer).after outlived).pending := by
    rw [hr]
    exact List.mem_singleton_self _
  have hexpired : ((idle Sample.config Sample.signer).after outlived).expired
      ((idle Sample.config Sample.signer).after outlived).now ⟨q, 60000⟩ = true := by
    rw [hr]
    show decide (Sample.config.pendingTtlMs.toNat ≤ 180000 - 60000) = true
    rfl
  rw [after_concat]
  exact (run_contiguous houtlived).expire "x" (by rw [hr]; rfl) (by rw [hr]) hstored hexpired

/-- Two pairs carry the nonces from 0 on. When the first has been submitted the second keeps its
own, and the lane goes on from there once the second has expired. -/
theorem sample_gapless :
    ((idle Sample.config Sample.signer).after Sample.both).pendingPairs.map
        (·.write.nonce.toNat) = [0, 1] ∧
      ((idle Sample.config Sample.signer).after Sample.outlived).pendingPairs.map
        (·.write.nonce.toNat) = [1] ∧
      ((idle Sample.config Sample.signer).after
        (Sample.outlived ++ [.start "x" .expire])).pending = [] ∧
      ((idle Sample.config Sample.signer).after
        (Sample.outlived ++ [.start "x" .expire])).writer.lane.next = some 1 := by
  obtain ⟨houtlived, ho, -⟩ := throughout_concat.mp Sample.outlived_roomy
  have hboth := (throughout_append.mp houtlived).1
  obtain ⟨p, q, -, -, hr⟩ := Sample.after_both
  have htwo := (pending_gapless hboth).carried 2 (by rw [hr])
  have hlength : ((idle Sample.config Sample.signer).after Sample.both).pending.length = 2 := by
    rw [hr]
    rfl
  rw [hlength] at htwo
  obtain ⟨q, hq, hr⟩ := Sample.after_outlived
  have hgapless := pending_gapless houtlived
  have hone := hgapless.carried 2 (by rw [hr])
  have hlength : ((idle Sample.config Sample.signer).after Sample.outlived).pending.length = 1 := by
    rw [hr]
    rfl
  rw [hlength] at hone
  have hempty := Sample.outlived_expires
  rw [after_concat] at hempty ⊢
  have hstored : Sample.secondKey ∈
      Table.keys ((idle Sample.config Sample.signer).after Sample.outlived).pending := by
    rw [hr]
    exact List.mem_singleton_self _
  obtain ⟨-, low, hlow, -, hnext⟩ := hgapless.emptied (.start "x" .expire) ho nofun _ hstored
    (by rw [hempty]; exact List.not_mem_nil)
  rw [hr] at hlow
  obtain rfl := List.mem_singleton.mp hlow
  exact ⟨htwo.2, hone.2, hempty, hnext.trans (congrArg some hq)⟩

end ComputeRelay
