import ComputeRelay.Node.Client
import ComputeRelay.Proofs.Pricing

/-! What the entry point charges for a cache write, as its simulation reports it, and what the
served operation pays for it. The charge is split by subtractions that stop at zero and summed up
again by additions that fail instead of wrapping, and nothing of it gets lost on the way. -/

namespace ComputeRelay

theorem reprice_summed (flatFee : Word) (key : Hash) (served : Operation) (cost : WriteCost)
    {resimulated : Simulation} (settled : resimulated.Settled) :
    Summed (served.preVerificationGas.toNat + (cost.verificationGas.toNat + cost.callGas.toNat +
        cost.preVerificationGas.toNat) + flatFee.toNat)
      ((reprice flatFee key served cost resimulated).map (·.estimate.preVerificationGas)) := by
  have hdue : served.dueGas cost flatFee = served.preVerificationGas.toNat +
      (cost.verificationGas.toNat + cost.callGas.toNat + cost.preVerificationGas.toNat) +
        flatFee.toNat := by
    rw [Operation.dueGas]
    omega
  rw [← hdue]
  rcases reprice_of_settled settled with ⟨fee, hfee, covers⟩ | ⟨hoverflow, exceeds⟩
  · rw [hfee]
    exact .exact covers.preVerificationGas
  · rw [hoverflow]
    exact .overflow exceeds

theorem Operation.toNat_simulationPrice (op : Operation) :
    op.simulationPrice.toNat = Max.max op.maxFeePerGas.toNat 1 := by
  rw [simulationPrice, Word.toNat_larger, Nat.max_comm]
  rfl

variable {σ : Type}

namespace NodeClient

/-- What the node answers to the simulation of an operation behind others. -/
def simulated (c : NodeClient (StateM σ)) (behind : List Operation) (op : Operation)
    (block : BlockContext) : StateM σ CallEnd :=
  c.callContract (c.config.simulationCall op) block (some (simulationState c.config behind op))

/-- A simulation that was not refused follows an execution result that the node gave. -/
theorem simulate_ran {c : NodeClient (StateM σ)} {s s' : σ} {behind : List Operation}
    {op : Operation} {block : BlockContext} {outcome : Simulation}
    (h : (c.simulate behind op block).run s = (.ok outcome, s'))
    (ran : outcome.validationError = none) :
    ∃ s₁ data result success revertData,
      (c.simulated behind op block).run s = (.reverted data, s₁) ∧
      ExecutionResult.decode? data = some result ∧
      outcome = .ofResult op block result success revertData := by
  unfold simulate at h
  simp only [StateT.run_bind] at h
  generalize hfirst : (c.simulated behind op block).run s = first
  rw [show (c.callContract (c.config.simulationCall op) block
    (some (simulationState c.config behind op))).run s = first from hfirst] at h
  obtain ⟨ended, s₁⟩ := first
  cases ended with
  | failed detail => cases h
  | returned data => cases h
  | reverted data =>
    cases hdecode : ExecutionResult.decode? data with
    | none =>
      simp only [bind, hdecode] at h
      cases h
      simp [Simulation.refused] at ran
    | some result =>
      simp only [bind, hdecode] at h
      generalize c.callContract (c.config.executionCall op) block
        (some (simulationState c.config behind op)) = executed at h
      simp only [StateT.run, StateT.bind] at h
      generalize executed s₁ = answered at h
      obtain ⟨ended, s₂⟩ := answered
      cases ended with
      | failed detail => cases h
      | returned _ =>
        cases h
        exact ⟨s₁, data, result, true, [], rfl, hdecode, rfl⟩
      | reverted revertData =>
        cases h
        exact ⟨s₁, data, result, false, revertData, rfl, hdecode, rfl⟩

end NodeClient

/-- The gas that the entry point charges for an operation, as an execution result reports it. -/
def Operation.charge (op : Operation) (result : ExecutionResult) : Nat :=
  result.paid.toNat / Max.max op.maxFeePerGas.toNat 1

/-- What a write costs, after its execution result. -/
structure Charged (write : Operation) (result : ExecutionResult) (outcome : Simulation) : Prop where
  price : write.simulationPrice.toNat = Max.max write.maxFeePerGas.toNat 1
  verificationGas : outcome.verificationGas.toNat =
    result.preOpGas.toNat - write.preVerificationGas.toNat
  callGas : outcome.callGas.toNat = write.charge result - result.preOpGas.toNat
  /-- The cost is the sum of three parts, and an overflow if that does not fit into a word. -/
  cost : Summed (outcome.verificationGas.toNat + outcome.callGas.toNat +
    write.preVerificationGas.toNat) (WriteCost.ofSimulation write outcome).total
  covers : ∀ total, (WriteCost.ofSimulation write outcome).total = .ok total →
    write.charge result ≤ total.toNat
  exact : write.preVerificationGas.toNat ≤ result.preOpGas.toNat →
    result.preOpGas.toNat ≤ write.charge result →
    ∃ total, (WriteCost.ofSimulation write outcome).total = .ok total ∧
      total.toNat = write.charge result
  /-- So is the gas that the served operation pays, where its simulation lets it be priced. -/
  repriced : ∀ flatFee key served resimulated, Simulation.Settled resimulated →
    Summed (served.preVerificationGas.toNat + (outcome.verificationGas.toNat +
        outcome.callGas.toNat + write.preVerificationGas.toNat) + flatFee.toNat)
      ((reprice flatFee key served (.ofSimulation write outcome) resimulated).map
        (·.estimate.preVerificationGas))
  paid : ∀ flatFee key served resimulated fee,
    reprice flatFee key served (.ofSimulation write outcome) resimulated = .ok fee →
    served.preVerificationGas.toNat + write.charge result + flatFee.toNat ≤
      fee.estimate.preVerificationGas.toNat

theorem charged_ofResult (write : Operation) (block : BlockContext) (result : ExecutionResult)
    (success : Bool) (revertData : Bytes) :
    Charged write result (.ofResult write block result success revertData) := by
  have hprice := write.toNat_simulationPrice
  have hverification :
      (Simulation.ofResult write block result success revertData).verificationGas.toNat =
        result.preOpGas.toNat - write.preVerificationGas.toNat := Word.toNat_saturatingSub _ _
  have hcall : (Simulation.ofResult write block result success revertData).callGas.toNat =
      write.charge result - result.preOpGas.toNat := by
    refine (Word.toNat_saturatingSub _ _).trans ?_
    rw [BitVec.toNat_udiv, hprice]
    rfl
  generalize Simulation.ofResult write block result success revertData = outcome at *
  have hcost : Summed (outcome.verificationGas.toNat + outcome.callGas.toNat +
      write.preVerificationGas.toNat) (WriteCost.ofSimulation write outcome).total :=
    (WriteCost.ofSimulation write outcome).total_summed
  -- nothing of the charge is lost where one of the subtractions stops at zero
  have hcovers : write.charge result ≤ outcome.verificationGas.toNat + outcome.callGas.toNat +
      write.preVerificationGas.toNat := by omega
  refine ⟨hprice, hverification, hcall, hcost, ?_, ?_, ?_, ?_⟩
  · intro total htotal
    rw [htotal] at hcost
    obtain ⟨heq⟩ := hcost
    exact hcovers.trans heq.ge
  · intro hverified hcharged
    have hfits : write.charge result < 2 ^ 256 :=
      (Nat.div_le_self _ _).trans_lt result.paid.isLt
    generalize (WriteCost.ofSimulation write outcome).total = cost at hcost
    cases hcost with
    | overflow le => omega
    | @exact total heq => exact ⟨total, rfl, by omega⟩
  · intro flatFee key served resimulated settled
    exact reprice_summed flatFee key served (.ofSimulation write outcome) settled
  · intro flatFee key served resimulated fee hfee
    have heq := (reprice_spec hfee).1
    simp only [WriteCost.ofSimulation] at heq
    omega

/-- A write that a node simulates to its end costs at least what the entry point charges for it,
and exactly that unless a subtraction stops at zero; and its served operation pays as much. -/
theorem charge_paid (c : NodeClient (StateM σ)) {s s' : σ} {behind : List Operation}
    {write : Operation} {block : BlockContext} {outcome : Simulation}
    (simulated : (c.simulate behind write block).run s = (.ok outcome, s'))
    (ran : outcome.validationError = none) :
    ∃ s₁ data result, (c.simulated behind write block).run s = (.reverted data, s₁) ∧
      ExecutionResult.decode? data = some result ∧ Charged write result outcome := by
  obtain ⟨s₁, data, result, success, revertData, hnode, hdecode, rfl⟩ :=
    NodeClient.simulate_ran simulated ran
  exact ⟨s₁, data, result, hnode, hdecode, charged_ofResult write block result success revertData⟩

theorem RpcError.revertData?_string (code : Int) {message : String} (s : String)
    (h : occursIn "revert".toList message.toList = true) :
    revertData? ⟨code, message, some (.string s)⟩ = some ((Bytes.ofHex? s).getD []) := by
  have hs : (Json.string s).sorted.firstBytes? = Bytes.ofHex? s := by
    rw [Json.sorted, Json.firstBytes?]
    all_goals simp
  rw [revertData?, if_pos h, Option.bind_some, hs]

namespace Sample

/-- The revert of an operation that used 40 of gas before its call, and paid 100 in all. -/
def chargedRevert : Bytes :=
  ExecutionResult.selector ++ Abi.encodeValues [.word 40, .word 100, .word 0, .word 0, .word 1,
    .bytes []]

/-- A node that reverts every call in that way. -/
def chargingNode : NodeClient (StateM Unit) where
  config := { chainId := 901, nodeUrl := "http://node", entryPoint := 0xe0, helper := 0xc1,
              systemAccount := 0xa0 }
  call _ := pure (.refused ⟨3, "execution reverted", some (.string chargedRevert.toHex)⟩)

def chargedWrite : Operation :=
  { sender := 0xa0, nonce := 0, callData := [], preVerificationGas := 21, maxFeePerGas := 2 }

def charged : ExecutionResult := ⟨40, 100, 0, 0, true, []⟩

theorem callContract_chargingNode (call : ContractCall) (block : BlockContext)
    (state : Option StateOverride) :
    chargingNode.callContract call block state = pure (.reverted chargedRevert) := by
  have hreverts : occursIn "revert".toList "execution reverted".toList = true := by
    decide +kernel
  have hdata := RpcError.revertData?_string 3 chargedRevert.toHex hreverts
  rw [Bytes.ofHex?_toHex] at hdata
  simp only [NodeClient.callContract, chargingNode, pure_bind, CallEnd.ofReply]
  rw [hdata]
  rfl

theorem decode_chargedRevert : ExecutionResult.decode? chargedRevert = some charged := by
  have hselector : Abi.dropSelector? ExecutionResult.selector chargedRevert =
      some (chargedRevert.drop 4) := by decide +kernel
  have hvalues : Abi.decode? [.word, .word, .word, .word, .word, .bytes] (chargedRevert.drop 4) =
      some [.word 40, .word 100, .word 0, .word 0, .word 1, .bytes []] := by decide +kernel
  rw [ExecutionResult.decode?, hselector, Option.bind_eq_bind, Option.bind_some, hvalues]
  rfl

/-- The write costs 50 of gas, which is what the entry point charged for it. -/
theorem charge_paid_sample :
    (chargingNode.simulate [] chargedWrite ⟨0, 0, 0⟩).run () =
        (.ok (.ofResult chargedWrite ⟨0, 0, 0⟩ charged false chargedRevert), ()) ∧
      chargedWrite.charge charged = 50 ∧
      Charged chargedWrite charged
        (.ofResult chargedWrite ⟨0, 0, 0⟩ charged false chargedRevert) := by
  have hrun : (chargingNode.simulate [] chargedWrite ⟨0, 0, 0⟩).run () =
      (.ok (.ofResult chargedWrite ⟨0, 0, 0⟩ charged false chargedRevert), ()) := by
    simp only [NodeClient.simulate, callContract_chargingNode, pure_bind, decode_chargedRevert]
    rfl
  obtain ⟨s₁, data, result, hnode, hdecode, hcharged⟩ := charge_paid chargingNode hrun rfl
  have hdata : (.reverted data, s₁) = (CallEnd.reverted chargedRevert, ()) := by
    rw [← hnode, NodeClient.simulated, callContract_chargingNode]
    rfl
  obtain ⟨⟨rfl⟩, -⟩ := Prod.mk.inj hdata
  cases hdecode.symm.trans decode_chargedRevert
  exact ⟨hrun, by decide, hcharged⟩

end Sample

end ComputeRelay
