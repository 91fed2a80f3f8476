import ComputeRelay.Bundle
import Mathlib

/-! The order in which the cache writes of a bundle are executed, and what the check of recorded
positions says about it. The check follows the positions as they are listed: the nonces count up
from front to back only if the list ascends. -/

namespace ComputeRelay

/-- Where the cache writes of a bundle stand, from front to back. -/
def writePositions (ops : List Operation) (systemAccount helper : Address) : List Nat :=
  (ops.zipIdx.filter fun e => e.1.isCacheWrite systemAccount helper).map (·.2)

/-- The nonces of the cache writes of a bundle, from front to back. -/
def writeNonces (ops : List Operation) (systemAccount helper : Address) : List Word :=
  (ops.filter (·.isCacheWrite systemAccount helper)).map (·.nonce)

/-- As many nonces as `n`, from `next` on. -/
def noncesFrom (next : Word) (n : Nat) : List Word := List.iterate (· + 1) next n

/-- A cache write stands at the position, directly before an operation of another account. -/
def WriteStands (ops : List Operation) (systemAccount helper : Address) (i : Nat) : Prop :=
  ∃ write served, ops[i]? = some write ∧ write.isCacheWrite systemAccount helper = true ∧
    ops[i + 1]? = some served ∧ served.sender ≠ systemAccount

def nonceAt (ops : List Operation) (i : Nat) : Option Word := ops[i]?.map (·.nonce)

variable {ops : List Operation} {systemAccount helper : Address} {positions : List Nat}
  {next : Word}

theorem noncesFrom_succ (next : Word) (n : Nat) :
    noncesFrom next (n + 1) = next :: noncesFrom (next + 1) n := rfl

theorem mem_writePositions {i : Nat} : i ∈ writePositions ops systemAccount helper ↔
    ∃ op, ops[i]? = some op ∧ op.isCacheWrite systemAccount helper = true := by
  simp [writePositions, List.mk_mem_zipIdx_iff_getElem?]

theorem writePositions_ascend (ops : List Operation) (systemAccount helper : Address) :
    (writePositions ops systemAccount helper).Pairwise (· < ·) := by
  have hsub : (writePositions ops systemAccount helper).Sublist (ops.zipIdx.map (·.2)) :=
    List.filter_sublist.map _
  refine List.Pairwise.sublist hsub ?_
  rw [List.zipIdx_map_snd]
  exact List.pairwise_lt_range'

theorem map_nonceAt_writePositions : (writePositions ops systemAccount helper).map (nonceAt ops) =
    (writeNonces ops systemAccount helper).map some := by
  have hfst : ops.filter (·.isCacheWrite systemAccount helper) =
      (ops.zipIdx.filter fun e => e.1.isCacheWrite systemAccount helper).map (·.1) := by
    conv_lhs => rw [← List.zipIdx_map_fst 0 ops, List.filter_map]
    rfl
  rw [writeNonces, hfst, writePositions, List.map_map, List.map_map, List.map_map]
  refine List.map_congr_left ?_
  rintro ⟨op, i⟩ he
  have hop : ops[i]? = some op := List.mk_mem_zipIdx_iff_getElem?.mp (List.mem_filter.mp he).1
  simp [nonceAt, hop]

theorem checkPositions_cons_eq_ok_iff {i : Nat} :
    checkPositions ops systemAccount helper (i :: positions) next = .ok () ↔
      WriteStands ops systemAccount helper i ∧ nonceAt ops i = some next ∧
        checkPositions ops systemAccount helper positions (next + 1) = .ok () := by
  simp only [checkPositions]
  cases hw : ops[i]? with
  | none => simp [WriteStands, hw]
  | some write =>
    have hnonce : nonceAt ops i = some write.nonce := by simp [nonceAt, hw]
    have hstands : WriteStands ops systemAccount helper i ↔
        write.isCacheWrite systemAccount helper = true ∧
          (ops[i + 1]?).any (·.sender != systemAccount) = true := by
      cases hs : ops[i + 1]? <;> simp [WriteStands, hw, hs]
    rw [hstands, hnonce, Option.some.injEq]
    by_cases hc : write.isCacheWrite systemAccount helper = true
    · by_cases hs : (ops[i + 1]?).any (·.sender != systemAccount) = true
      · by_cases hn : write.nonce = next <;> simp [hc, hs, hn]
      · simp [hc, hs]
    · simp [hc]

theorem checkPositions_eq_ok_iff :
    checkPositions ops systemAccount helper positions next = .ok () ↔
      (∀ i ∈ positions, WriteStands ops systemAccount helper i) ∧
        positions.map (nonceAt ops) = (noncesFrom next positions.length).map some := by
  induction positions generalizing next with
  | nil => simp [checkPositions, noncesFrom]
  | cons i positions ih =>
    rw [checkPositions_cons_eq_ok_iff, ih]
    simp only [List.forall_mem_cons, List.map_cons, List.length_cons, noncesFrom_succ,
      List.cons.injEq]
    tauto

theorem checkOrdering_eq_ok_iff :
    checkOrdering ops positions systemAccount helper next = .ok () ↔
      checkPositions ops systemAccount helper positions next = .ok () ∧
        ∀ i ∈ writePositions ops systemAccount helper, i ∈ positions := by
  unfold checkOrdering
  cases checkPositions ops systemAccount helper positions next with
  | error e => simp [bind, Except.bind]
  | ok u =>
    simp only [bind, Except.bind, true_and]
    split
    · rename_i op i hfound
      have hmem := List.mem_of_find?_eq_some hfound
      have hunlisted := List.find?_some hfound
      rw [List.mk_mem_zipIdx_iff_getElem?] at hmem
      simp only [Bool.and_eq_true, Bool.not_eq_true', List.contains_eq_mem,
        decide_eq_false_iff_not] at hunlisted
      refine iff_of_false (by simp [throw, throwThe, MonadExceptOf.throw]) ?_
      exact fun h => hunlisted.2 (h i (mem_writePositions.mpr ⟨op, hmem, hunlisted.1⟩))
    · rename_i hnone
      simp only [List.find?_eq_none, Prod.forall, List.mk_mem_zipIdx_iff_getElem?] at hnone
      refine iff_of_true rfl ?_
      intro i hi
      obtain ⟨op, hop, hwrite⟩ := mem_writePositions.mp hi
      simpa [hwrite] using hnone op i hop

theorem noncesFrom_eq_map (next : Word) (n : Nat) :
    noncesFrom next n = (List.range n).map fun k => next + BitVec.ofNat 256 k := by
  have hiterate : ∀ k, (· + 1)^[k] next = next + BitVec.ofNat 256 k := by
    intro k
    induction k with
    | zero => simp
    | succ k ih =>
      rw [Function.iterate_succ_apply', ih, BitVec.ofNat_add, BitVec.add_assoc]
      rfl
  rw [noncesFrom, ← List.range_map_iterate]
  exact List.map_congr_left fun k _ => hiterate k

theorem noncesFrom_concat (next : Word) (n : Nat) :
    noncesFrom next (n + 1) = noncesFrom next n ++ [next + BitVec.ofNat 256 n] := by
  simp [noncesFrom_eq_map, List.range_succ]

theorem nodup_noncesFrom {n : Nat} (hn : n ≤ 2 ^ 256) (next : Word) :
    (noncesFrom next n).Nodup := by
  rw [noncesFrom_eq_map]
  refine List.Nodup.map_on ?_ List.nodup_range
  intro a ha b hb heq
  have ha' := List.mem_range.mp ha
  have hb' := List.mem_range.mp hb
  have hmod := congrArg BitVec.toNat ((BitVec.add_right_inj next).mp heq)
  rwa [BitVec.toNat_ofNat, BitVec.toNat_ofNat, Nat.mod_eq_of_lt (by omega),
    Nat.mod_eq_of_lt (by omega)] at hmod

theorem eq_writePositions_of_ascend (ascend : positions.Pairwise (· < ·))
    (hmem : ∀ i, i ∈ positions ↔ i ∈ writePositions ops systemAccount helper) :
    positions = writePositions ops systemAccount helper :=
  ascend.eq_of_mem_iff (writePositions_ascend ops systemAccount helper) hmem

/-- No nonce comes twice, so a position is known by the nonce that stands there. -/
theorem eq_writePositions_of_nonces (hlen : positions.length ≤ 2 ^ 256)
    (hpositions : positions.map (nonceAt ops) = (noncesFrom next positions.length).map some)
    (hmem : ∀ i, i ∈ positions ↔ i ∈ writePositions ops systemAccount helper)
    (hnonces : writeNonces ops systemAccount helper = noncesFrom next positions.length) :
    positions = writePositions ops systemAccount helper := by
  have hsame : positions.map (nonceAt ops) =
      (writePositions ops systemAccount helper).map (nonceAt ops) := by
    rw [hpositions, map_nonceAt_writePositions, hnonces]
  have hnodup : (positions.map (nonceAt ops)).Nodup := by
    rw [hpositions]
    exact (nodup_noncesFrom hlen next).map (Option.some_injective _)
  have hlength : positions.length = (writePositions ops systemAccount helper).length := by
    simpa using congrArg List.length hsame
  refine List.ext_getElem hlength ?_
  intro k h₁ h₂
  have hk : nonceAt ops positions[k] =
      nonceAt ops (writePositions ops systemAccount helper)[k] := by
    have hget := congrArg (·[k]?) hsame
    simpa [h₁, h₂] using hget
  exact List.inj_on_of_nodup_map hnodup (List.getElem_mem h₁)
    ((hmem _).mpr (List.getElem_mem h₂)) hk

/-- In a bundle that passes the check, the recorded positions are those of the cache writes and each
write stands directly before an operation of another account. The nonces count up from front to
back exactly if the positions are recorded in that order. -/
theorem checkOrdering_sound
    (h : checkOrdering ops positions systemAccount helper next = .ok ()) :
    (∀ i, i ∈ positions ↔ i ∈ writePositions ops systemAccount helper) ∧
      (∀ i ∈ positions, ∃ served, ops[i + 1]? = some served ∧ served.sender ≠ systemAccount) ∧
      (positions.Pairwise (· < ·) →
        positions = writePositions ops systemAccount helper ∧
          writeNonces ops systemAccount helper = noncesFrom next positions.length) ∧
      (positions.length ≤ 2 ^ 256 →
        writeNonces ops systemAccount helper = noncesFrom next positions.length →
          positions.Pairwise (· < ·)) := by
  obtain ⟨hcheck, hrecorded⟩ := checkOrdering_eq_ok_iff.mp h
  obtain ⟨hstands, hpositions⟩ := checkPositions_eq_ok_iff.mp hcheck
  have hmem : ∀ i, i ∈ positions ↔ i ∈ writePositions ops systemAccount helper := by
    intro i
    refine ⟨?_, hrecorded i⟩
    intro hi
    obtain ⟨write, -, hwrite, hc, -⟩ := hstands i hi
    exact mem_writePositions.mpr ⟨write, hwrite, hc⟩
  refine ⟨hmem, ?_, ?_, ?_⟩
  · intro i hi
    obtain ⟨-, served, -, -, hserved⟩ := hstands i hi
    exact ⟨served, hserved⟩
  · intro ascend
    have heq := eq_writePositions_of_ascend ascend hmem
    refine ⟨heq, List.map_injective_iff.mpr (Option.some_injective _) ?_⟩
    rw [← map_nonceAt_writePositions, ← heq, hpositions]
  · intro hlen hnonces
    rw [eq_writePositions_of_nonces hlen hpositions hmem hnonces]
    exact writePositions_ascend ops systemAccount helper

namespace Sample

def cacheWrite (nonce : Word) : Operation :=
  { sender := 0x5a, nonce, callData := CacheWrite.encode 0xc1 1 [] [] }

def bystander : Operation := { sender := 0xb1, nonce := 0, callData := [] }

end Sample

/-- Two writes that are recorded from front to back. -/
theorem checkOrdering_sound_ascending :
    checkOrdering [Sample.cacheWrite 7, Sample.bystander, Sample.cacheWrite 8, Sample.bystander]
        [0, 2] 0x5a 0xc1 7 = .ok () ∧
      writeNonces [Sample.cacheWrite 7, Sample.bystander, Sample.cacheWrite 8, Sample.bystander]
        0x5a 0xc1 = noncesFrom 7 2 := by
  have hcheck : checkOrdering [Sample.cacheWrite 7, Sample.bystander, Sample.cacheWrite 8,
      Sample.bystander] [0, 2] 0x5a 0xc1 7 = .ok () := by decide +kernel
  exact ⟨hcheck, ((checkOrdering_sound hcheck).2.2.1 (by decide)).2⟩

/-- Recorded from back to front, writes whose nonces count down pass the check. -/
theorem checkOrdering_accepts_descending :
    checkOrdering [Sample.cacheWrite 8, Sample.bystander, Sample.cacheWrite 7, Sample.bystander]
        [2, 0] 0x5a 0xc1 7 = .ok () ∧
      writeNonces [Sample.cacheWrite 8, Sample.bystander, Sample.cacheWrite 7, Sample.bystander]
        0x5a 0xc1 ≠ noncesFrom 7 2 := by
  decide +kernel

end ComputeRelay
