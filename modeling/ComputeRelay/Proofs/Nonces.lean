import ComputeRelay.Proofs.Line

/-! The nonces of pending pairs. As long as a nonce is read only while no pair is pending, the next
nonce of the lane is above the nonces of all pending pairs, and these are pairwise different. -/

namespace ComputeRelay

open Relay

structure NoncesApart (s : Shared) : Prop where
  keys : (Table.keys s.pending).Nodup
  below : ∀ nonce, s.lane.next = some nonce →
    ∀ e ∈ s.pending, e.2.pair.write.nonce.toNat < nonce.toNat
  apart : (s.pending.map fun e => e.2.pair.write.nonce).Nodup

namespace NoncesApart

variable {s s' : Shared}

theorem congr (hn : NoncesApart s) (hlane : s'.lane.next = s.lane.next)
    (hpending : s'.pending = s.pending) : NoncesApart s' := by
  refine ⟨hpending ▸ hn.keys, ?_, hpending ▸ hn.apart⟩
  rw [hlane, hpending]
  exact hn.below

theorem filter (hn : NoncesApart s) {p : Hash × PendingPair → Bool}
    (hpending : s'.pending = s.pending.filter p)
    (hbelow : ∀ nonce, s'.lane.next = some nonce →
      ∀ e ∈ s.pending, p e = true → e.2.pair.write.nonce.toNat < nonce.toNat) :
    NoncesApart s' := by
  refine ⟨?_, ?_, ?_⟩
  · rw [hpending]
    exact Table.nodup_keys_filter p hn.keys
  · intro nonce hnext e he
    rw [hpending] at he
    obtain ⟨hmem, hp⟩ := List.mem_filter.mp he
    exact hbelow nonce hnext e hmem hp
  · rw [hpending]
    exact hn.apart.sublist (List.filter_sublist.map _)

theorem rewind (hn : NoncesApart s) {cutoff : Nat} (fits : cutoff < 2 ^ 256) :
    NoncesApart (s.rewind cutoff) := by
  refine hn.filter rfl ?_
  intro nonce hnext e he hkept
  have hlow : e.2.pair.write.nonce.toNat < cutoff := by
    by_contra hhigh
    have hin : e.1 ∈ s.above cutoff :=
      List.mem_map.mpr ⟨e, List.mem_filter.mpr ⟨he, by simpa using hhigh⟩, rfl⟩
    simp [hin] at hkept
  have hcut : (BitVec.ofNat 256 cutoff).toNat = cutoff := by
    simpa using Nat.mod_eq_of_lt fits
  simp only [Shared.rewind, Shared.forget, Lane.rewind, Option.map_eq_some_iff] at hnext
  obtain ⟨old, hold, hnonce⟩ := hnext
  have hbelow := hn.below old hold e he
  rw [← hnonce]
  split
  · rw [hcut]
    exact hlow
  · exact hbelow

theorem finish (hn : NoncesApart s) {pair : Pair} {id : CallId} {key : Hash} {now : Nat}
    (hnext : s.lane.next = some pair.write.nonce)
    (room : pair.write.nonce.toNat + 1 < 2 ^ 256) :
    NoncesApart { s with
      lane := (s.lane.commit pair.write.nonce).leave id
      pending := Table.insert s.pending key ⟨pair, now⟩ } := by
  have hbelow := hn.below _ hnext
  refine ⟨Table.nodup_keys_insert _ _ hn.keys, ?_, ?_⟩
  · intro nonce hc e he
    have hsucc : nonce.toNat = pair.write.nonce.toNat + 1 := by
      simp only [Lane.commit, Lane.leave, Option.some.injEq] at hc
      rw [← hc, BitVec.toNat_add]
      exact Nat.mod_eq_of_lt room
    rcases Table.mem_of_mem_insert he with rfl | hm
    · simp only
      omega
    · have := hbelow e hm
      omega
  · rw [List.Nodup, List.pairwise_map]
    refine Table.pairwise_insert (fun _ _ hne => hne.symm) ?_ (List.pairwise_map.mp hn.apart)
    intro e he heq
    have := hbelow e he
    rw [heq] at this
    exact Nat.lt_irrefl _ this

theorem attach (hn : NoncesApart s) {key : Hash} {entry : PendingPair} {pair : Pair}
    (stored : (key, entry) ∈ s.pending) (hwrite : pair.write = entry.pair.write) :
    NoncesApart { s with pending := Table.insert s.pending key { entry with pair } } := by
  have hsame : (Table.insert s.pending key { entry with pair }).map
      (fun e => e.2.pair.write.nonce) = s.pending.map fun e => e.2.pair.write.nonce :=
    Table.map_insert _ hn.keys stored (by simp [hwrite])
  refine ⟨Table.nodup_keys_insert _ _ hn.keys, ?_, ?_⟩
  · intro nonce hnext e he
    rcases Table.mem_of_mem_insert he with rfl | hm
    · simpa [hwrite] using hn.below nonce hnext _ stored
    · exact hn.below nonce hnext e hm
  · simp only [hsame]
    exact hn.apart

/-- The moves of a call keep nonces apart if a nonce is read while no pair is pending, and the lane
has not come to the last nonce. -/
theorem kept {r : Relay} {e : Event} {id : CallId} {log : List Event}
    (alone : ∀ nonce, r.teaches? e = some nonce → r.pending = [])
    (room : r.writer.lane.next ≠ some (BitVec.allOnes 256)) (hr : InLine r.shared r.holdOf) :
    KeptByMoves r e id log fun s f => InLine s f ∧ NoncesApart s := by
  intro s s' h h' hm hp
  refine ⟨InLine.kept r e id log hm hp.1, ?_⟩
  obtain ⟨hi, hn⟩ := hp
  cases hm with
  | join outside => exact hn.congr rfl rfl
  | leave => exact hn.congr rfl rfl
  | read waiting first => exact hn
  | grant waiting first => exact hn
  | learn reading taught untouched =>
    have hnil : s.pending = [] := untouched.trans (alone _ taught)
    refine ⟨hn.keys, ?_, hn.apart⟩
    intro nonce _ e he
    simp [hnil] at he
  | rewind waiting first fits => exact hn.rewind fits
  | resync waiting first =>
    refine ⟨hn.keys, ?_, hn.apart⟩
    intro nonce hnext
    exact nomatch hnext
  | reserve row free new => exact hn.congr rfl rfl
  | release held => exact hn.congr rfl rfl
  | enroll free new => exact hn.congr rfl rfl
  | record row => exact hn.congr rfl rfl
  | close row free => exact hn.congr rfl rfl
  | forget => exact hn.filter rfl fun nonce hnext e he _ => hn.below nonce hnext e he
  | @finish _ _ pair now row held granted before backed =>
    have hnext := hi.known id pair.write.nonce (by simpa using granted)
    have hroom : pair.write.nonce.toNat + 1 < 2 ^ 256 := by
      by_contra hfull
      have hall : pair.write.nonce = BitVec.allOnes 256 := by
        apply BitVec.eq_of_toNat_eq
        have := pair.write.nonce.isLt
        rw [BitVec.toNat_allOnes]
        omega
      exact room (hall ▸ hr.known id _ before)
    exact hn.finish hnext hroom
  | attach stored accepted =>
    obtain ⟨hpair, -⟩ := Pair.withSigned_spec accepted
    exact hn.attach stored (by rw [hpair])
  | letGo row free gone => exact hn

end NoncesApart

/-- A nonce is read while no pair is pending only, and the lane is not at the last nonce. -/
def ReadsAlone (r : Relay) (e : Event) : Prop :=
  (r.teaches? e ≠ none → r.pending = []) ∧ r.writer.lane.next ≠ some (BitVec.allOnes 256)

instance (r : Relay) (e : Event) : Decidable (ReadsAlone r e) :=
  inferInstanceAs (Decidable ((r.teaches? e ≠ none → r.pending = []) ∧
    r.writer.lane.next ≠ some (BitVec.allOnes 256)))

theorem run_noncesApart {config : Config} {signer : Signer} {es : List Event}
    (h : Throughout ReadsAlone (idle config signer) es) :
    NoncesApart ((idle config signer).after es).shared := by
  have hp := run_keeps (P := fun _ s f => InLine s f ∧ NoncesApart s)
    ⟨idle_inLine, ⟨List.nodup_nil, by simp, List.nodup_nil⟩⟩ (fun _ _ _ _ hp => hp)
    (fun es e id hok hp => NoncesApart.kept (fun nonce ht => hok.1 (by simp [ht])) hok.2 hp.1) h
  exact hp.2

end ComputeRelay
