import ComputeRelay.Lane

/-! Running calls side by side. Calls that can go on at one instant do so in their order, each as
far as it can, until none of them can. -/

namespace ComputeRelay.Rehearsal

variable {σ : Type}

/-- Repeats a step until it no longer applies. -/
def exhaust (step : σ → Option σ) : (fuel : Nat) → σ → σ
  | 0, s => s
  | fuel + 1, s =>
    match step s with
    | some s => exhaust step fuel s
    | none => s

/-- Lets every call go on in turn, as far as it can; `none` if none of them could. -/
def pass (step : CallId → σ → Option σ) (fuel : Nat) (ids : List CallId) (s : σ) : Option σ :=
  let run := ids.foldl
    (fun (s, moved) id =>
      match step id s with
      | some s => (exhaust (step id) fuel s, true)
      | none => (s, moved))
    (s, false)
  if run.2 then some run.1 else none

/-- Lets calls go on until none of them can. -/
def settleAll (step : CallId → σ → Option σ) (fuel : Nat) (ids : List CallId) (s : σ) : σ :=
  exhaust (pass step fuel ids) fuel s

end ComputeRelay.Rehearsal
