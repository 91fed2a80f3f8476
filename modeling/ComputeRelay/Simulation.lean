import ComputeRelay.Request

/-! The outcome of simulating one operation, behind other operations or alone. -/

namespace ComputeRelay

structure Simulation where
  /-- Whether the operation's own call ended without reverting. -/
  success : Bool := false
  revertData : Bytes := []
  /-- Why the entry point refused the operation before its call, if it did. -/
  validationError : Option String := none
  verificationGas : Word := 0
  callGas : Word := 0
  block : BlockContext := ⟨0, 0, 0⟩
deriving DecidableEq, Repr, Inhabited

def Simulation.gasUsed (s : Simulation) : Word :=
  Word.saturatingAdd s.verificationGas s.callGas

end ComputeRelay
