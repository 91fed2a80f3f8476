import ComputeRelay.Fee
import ComputeRelay.Proofs.Markers

/-! When a served operation can be priced anew, and at what: its simulation must have run to its end
and must not ask for an off-chain result any more, which it does exactly when a request or a broken
marker would be detected in it, and all that the operation pays must fit into one word. -/

namespace ComputeRelay

/-- A sum of gas is taken exactly, and it overflows if and only if it does not fit into a word. -/
inductive Summed (sum : Nat) : Except RepriceError Word → Prop
  | exact {w : Word} (eq : w.toNat = sum) : Summed sum (.ok w)
  | overflow (le : 2 ^ 256 ≤ sum) : Summed sum (.error .overflow)

theorem WriteCost.total_summed (cost : WriteCost) :
    Summed (cost.verificationGas.toNat + cost.callGas.toNat + cost.preVerificationGas.toNat)
      cost.total := by
  unfold WriteCost.total
  rcases Word.checkedSum_cases cost.verificationGas cost.callGas cost.preVerificationGas with
    ⟨sum, hsum, heq⟩ | ⟨hnone, hle⟩
  · rw [hsum]
    exact .exact heq
  · rw [hnone]
    exact .overflow hle

/-- The simulation ran to its end, and does not ask for the result that was just written. -/
def Simulation.Settled (s : Simulation) : Prop :=
  s.validationError = none ∧ (s.success = true ∨ Marker.isClaimedBy s.revertData = false)

/-- The gas that a served operation pays for: its own, its write's and the flat fee. -/
def Operation.dueGas (served : Operation) (cost : WriteCost) (flatFee : Word) : Nat :=
  served.preVerificationGas.toNat + cost.verificationGas.toNat + cost.callGas.toNat +
    cost.preVerificationGas.toNat + flatFee.toNat

/-- The new gas fields of an operation pay for everything, and the amounts added are its parts. -/
structure FeeAdjustment.Covers (fee : FeeAdjustment) (flatFee : Word) (served : Operation)
    (cost : WriteCost) (outcome : Simulation) : Prop where
  writeCost : fee.writeCost.toNat =
    cost.verificationGas.toNat + cost.callGas.toNat + cost.preVerificationGas.toNat
  surcharge : fee.surcharge = flatFee
  preVerificationGas : fee.estimate.preVerificationGas.toNat = served.dueGas cost flatFee
  verificationGasLimit : fee.estimate.verificationGasLimit.toNat =
    Max.max served.verificationGasLimit.toNat outcome.verificationGas.toNat
  callGasLimit : fee.estimate.callGasLimit.toNat =
    Max.max served.callGasLimit.toNat outcome.callGas.toNat

variable {flatFee : Word} {key : Hash} {served : Operation} {cost : WriteCost}
  {outcome : Simulation} {fee fee' : FeeAdjustment}

theorem FeeAdjustment.Covers.unique (h : fee.Covers flatFee served cost outcome)
    (h' : fee'.Covers flatFee served cost outcome) : fee = fee' := by
  have hcost := BitVec.eq_of_toNat_eq (h.writeCost.trans h'.writeCost.symm)
  have hsurcharge := h.surcharge.trans h'.surcharge.symm
  have hgas := BitVec.eq_of_toNat_eq (h.preVerificationGas.trans h'.preVerificationGas.symm)
  have hverification :=
    BitVec.eq_of_toNat_eq (h.verificationGasLimit.trans h'.verificationGasLimit.symm)
  have hcall := BitVec.eq_of_toNat_eq (h.callGasLimit.trans h'.callGasLimit.symm)
  calc fee = ⟨fee.writeCost, fee.surcharge, fee.estimate.preVerificationGas,
        fee.estimate.verificationGasLimit, fee.estimate.callGasLimit⟩ := rfl
    _ = fee' := by rw [hcost, hsurcharge, hgas, hverification, hcall]

theorem Simulation.settled_iff :
    outcome.Settled ↔
      outcome.validationError = none ∧ ∀ op, detect op outcome = .ok none := by
  simp only [Settled, detect_eq_none_iff, ← Marker.isClaimedBy_iff, Bool.not_eq_true, forall_const]

theorem reprice_of_refused {reason : String} (h : outcome.validationError = some reason) :
    reprice flatFee key served cost outcome = .error (.simulationFailed reason) := by
  rw [reprice, h]
  rfl

theorem reprice_of_claimed (valid : outcome.validationError = none)
    (failed : outcome.success = false) (claimed : Marker.selector <+: outcome.revertData) :
    reprice flatFee key served cost outcome = .error (.stillPending key) := by
  have hpending : (!outcome.success && Marker.isClaimedBy outcome.revertData) = true := by
    rw [failed, Marker.isClaimedBy_iff.mpr claimed]
    rfl
  rw [reprice, valid, hpending]
  rfl

theorem reprice_of_settled (settled : outcome.Settled) :
    (∃ fee, reprice flatFee key served cost outcome = .ok fee ∧
      fee.Covers flatFee served cost outcome) ∨
    reprice flatFee key served cost outcome = .error .overflow ∧
      2 ^ 256 ≤ served.dueGas cost flatFee := by
  obtain ⟨valid, answered⟩ := settled
  have hpending : (!outcome.success && Marker.isClaimedBy outcome.revertData) = false := by
    rcases answered with h | h
    · rw [h, Bool.not_true, Bool.false_and]
    · rw [h, Bool.and_false]
  have htotal := cost.total_summed
  rw [reprice, valid, hpending]
  generalize cost.total = total at htotal
  cases htotal with
  | overflow le =>
    -- The cost of the write is a part of the sum, which does not fit either then.
    right
    refine ⟨rfl, ?_⟩
    rw [Operation.dueGas]
    omega
  | @exact writeCost heq =>
    rcases Word.checkedSum_cases served.preVerificationGas writeCost flatFee with
      ⟨sum, hsum, heq'⟩ | ⟨hnone, hle⟩
    · left
      refine ⟨⟨writeCost, flatFee, sum, Word.larger served.verificationGasLimit
        outcome.verificationGas, Word.larger served.callGasLimit outcome.callGas⟩, ?_,
        heq, rfl, ?_, Word.toNat_larger _ _, Word.toNat_larger _ _⟩
      · simp only [bind, Except.bind, Bool.false_eq_true, if_false, hsum]
        rfl
      · show sum.toNat = _
        rw [Operation.dueGas]
        omega
    · right
      refine ⟨?_, ?_⟩
      · simp only [bind, Except.bind, Bool.false_eq_true, if_false, hnone]
        rfl
      · rw [Operation.dueGas]
        omega

/-- What comes of pricing a served operation anew. The ways exclude each other. -/
inductive Repriced (flatFee : Word) (key : Hash) (served : Operation) (cost : WriteCost)
    (outcome : Simulation) : Except RepriceError FeeAdjustment → Prop
  | refused {reason : String} (invalid : outcome.validationError = some reason) :
      Repriced flatFee key served cost outcome (.error (.simulationFailed reason))
  | claimed (valid : outcome.validationError = none) (failed : outcome.success = false)
      (claimed : Marker.selector <+: outcome.revertData) :
      Repriced flatFee key served cost outcome (.error (.stillPending key))
  | overflow (settled : outcome.Settled) (exceeds : 2 ^ 256 ≤ served.dueGas cost flatFee) :
      Repriced flatFee key served cost outcome (.error .overflow)
  | priced {fee : FeeAdjustment} (settled : outcome.Settled)
      (covers : fee.Covers flatFee served cost outcome) :
      Repriced flatFee key served cost outcome (.ok fee)

theorem reprice_repriced (flatFee : Word) (key : Hash) (served : Operation) (cost : WriteCost)
    (outcome : Simulation) :
    Repriced flatFee key served cost outcome (reprice flatFee key served cost outcome) := by
  cases hvalid : outcome.validationError with
  | some reason =>
    rw [reprice_of_refused hvalid]
    exact .refused hvalid
  | none =>
    by_cases settled : outcome.Settled
    · rcases reprice_of_settled settled with ⟨fee, hfee, covers⟩ | ⟨hoverflow, exceeds⟩
      · rw [hfee]
        exact .priced settled covers
      · rw [hoverflow]
        exact .overflow settled exceeds
    · have hasks : ¬ (outcome.success = true ∨ Marker.isClaimedBy outcome.revertData = false) :=
        fun h => settled ⟨hvalid, h⟩
      obtain ⟨failed, claimed⟩ := not_or.mp hasks
      rw [Bool.not_eq_true] at failed
      rw [Bool.not_eq_false, Marker.isClaimedBy_iff] at claimed
      rw [reprice_of_claimed hvalid failed claimed]
      exact .claimed hvalid failed claimed

theorem repriced_of_reprice {result : Except RepriceError FeeAdjustment}
    (h : reprice flatFee key served cost outcome = result) :
    Repriced flatFee key served cost outcome result := by
  rw [← h]
  exact reprice_repriced flatFee key served cost outcome

theorem FeeAdjustment.Covers.dueGas_lt (h : fee.Covers flatFee served cost outcome) :
    served.dueGas cost flatFee < 2 ^ 256 := by
  rw [← h.preVerificationGas]
  exact fee.estimate.preVerificationGas.isLt

theorem reprice_eq_ok_iff :
    reprice flatFee key served cost outcome = .ok fee ↔
      outcome.Settled ∧ fee.Covers flatFee served cost outcome := by
  constructor
  · intro h
    cases repriced_of_reprice h with
    | priced settled covers => exact ⟨settled, covers⟩
  · rintro ⟨settled, covers⟩
    rcases reprice_of_settled settled with ⟨fee', hfee, covers'⟩ | ⟨-, exceeds⟩
    · rw [hfee, covers.unique covers']
    · exact absurd covers.dueGas_lt (Nat.not_lt.mpr exceeds)

theorem exists_reprice_iff :
    (∃ fee, reprice flatFee key served cost outcome = .ok fee) ↔
      outcome.Settled ∧ served.dueGas cost flatFee < 2 ^ 256 := by
  constructor
  · rintro ⟨fee, h⟩
    obtain ⟨settled, covers⟩ := reprice_eq_ok_iff.mp h
    exact ⟨settled, covers.dueGas_lt⟩
  · rintro ⟨settled, hlt⟩
    rcases reprice_of_settled settled with ⟨fee, hfee, -⟩ | ⟨-, exceeds⟩
    · exact ⟨fee, hfee⟩
    · exact absurd hlt (Nat.not_lt.mpr exceeds)

theorem reprice_overflow_iff :
    reprice flatFee key served cost outcome = .error .overflow ↔
      outcome.Settled ∧ 2 ^ 256 ≤ served.dueGas cost flatFee := by
  constructor
  · intro h
    cases repriced_of_reprice h with
    | overflow settled exceeds => exact ⟨settled, exceeds⟩
  · rintro ⟨settled, exceeds⟩
    rcases reprice_of_settled settled with ⟨fee, -, covers⟩ | ⟨hoverflow, -⟩
    · exact absurd covers.dueGas_lt (Nat.not_lt.mpr exceeds)
    · exact hoverflow

theorem reprice_refused_iff {reason : String} :
    reprice flatFee key served cost outcome = .error (.simulationFailed reason) ↔
      outcome.validationError = some reason := by
  constructor
  · intro h
    cases repriced_of_reprice h with
    | refused invalid => exact invalid
  · exact reprice_of_refused

theorem reprice_claimed_iff {named : Hash} :
    reprice flatFee key served cost outcome = .error (.stillPending named) ↔
      named = key ∧ outcome.validationError = none ∧ outcome.success = false ∧
        Marker.selector <+: outcome.revertData := by
  constructor
  · intro h
    cases repriced_of_reprice h with
    | claimed valid failed claimed => exact ⟨rfl, valid, failed, claimed⟩
  · rintro ⟨rfl, valid, failed, claimed⟩
    exact reprice_of_claimed valid failed claimed

/-- What comes of pricing any served operation anew, for every cost and every simulation. Whether a
simulation still asks for a result is what is detected in it, whichever operation it is of. -/
theorem repriced_exactly (flatFee : Word) (key : Hash) (served : Operation) (cost : WriteCost)
    (outcome : Simulation) :
    (∀ fee, reprice flatFee key served cost outcome = .ok fee ↔
      (outcome.validationError = none ∧ ∀ op, detect op outcome = .ok none) ∧
        fee.Covers flatFee served cost outcome) ∧
    ((∃ fee, reprice flatFee key served cost outcome = .ok fee) ↔
      (outcome.validationError = none ∧ ∀ op, detect op outcome = .ok none) ∧
        served.dueGas cost flatFee < 2 ^ 256) ∧
    (reprice flatFee key served cost outcome = .error .overflow ↔
      (outcome.validationError = none ∧ ∀ op, detect op outcome = .ok none) ∧
        2 ^ 256 ≤ served.dueGas cost flatFee) ∧
    (∀ reason, reprice flatFee key served cost outcome = .error (.simulationFailed reason) ↔
      outcome.validationError = some reason) ∧
    ∀ named, reprice flatFee key served cost outcome = .error (.stillPending named) ↔
      named = key ∧ outcome.validationError = none ∧ outcome.success = false ∧
        Marker.selector <+: outcome.revertData := by
  simp only [← Simulation.settled_iff]
  exact ⟨fun fee => reprice_eq_ok_iff, exists_reprice_iff, reprice_overflow_iff,
    fun reason => reprice_refused_iff, fun named => reprice_claimed_iff⟩

end ComputeRelay
