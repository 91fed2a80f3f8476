import ComputeRelay.Proofs.Integrity

/-! Signing anew the operation that a pair serves. The pair takes an operation that renews the
signature of the stored one and changes nothing else; so through all attempts, taken or refused, it
goes on serving the operation that it was made for. -/

namespace ComputeRelay

open Relay

/-- The served operation carries the gas fields that the pair records for it. -/
def Pair.Estimated (p : Pair) : Prop := p.served.gas = p.estimate

/-- The signature is a new one, and all other fields are as stored. -/
structure Operation.Renews (signed stored : Operation) : Prop where
  same : signed = { stored with signature := signed.signature }
  given : signed.signature ≠ []
  fresh : signed.signature ≠ stored.signature

inductive Operation.Strays (signed stored : Operation) : String → Prop
  | gas (other : signed.gas ≠ stored.gas) :
      Strays signed stored "gas fields differ from the estimate"
  | callData (other : signed.callData ≠ stored.callData) : Strays signed stored "callData differs"
  | code (other : signed.initCode ≠ stored.initCode ∨
      signed.paymasterAndData ≠ stored.paymasterAndData) :
      Strays signed stored "initCode or paymasterAndData differs"
  | fees (other : signed.maxFeePerGas ≠ stored.maxFeePerGas ∨
      signed.maxPriorityFeePerGas ≠ stored.maxPriorityFeePerGas) :
      Strays signed stored "fee fields differ"
  | signature (old : signed.signature = [] ∨ signed.signature = stored.signature) :
      Strays signed stored "signature was not renewed"

/-- Why an operation does not renew a stored one: it is of another sender or nonce, or it strays
from the stored one in what the error names. -/
inductive Operation.Refused (signed stored : Operation) : AttachError → Prop
  | unknown (other : signed.sender ≠ stored.sender ∨ signed.nonce ≠ stored.nonce) :
      Refused signed stored (.unknownOperation signed.sender signed.nonce)
  | mismatch {detail : String} (sender : signed.sender = stored.sender)
      (nonce : signed.nonce = stored.nonce) (strays : signed.Strays stored detail) :
      Refused signed stored (.mismatch detail)

theorem ite_error_eq_error_iff {ε α : Type} {c : Prop} [Decidable c] {error e : ε}
    {x : Except ε α} :
    (if c then .error error else x) = .error e ↔ c ∧ error = e ∨ ¬ c ∧ x = .error e := by
  split <;> simp [*]

namespace Pair

variable {p q : Pair} {signed : Operation}

theorem Estimated.serves (h : p.Estimated)
    (same : signed = { p.served with signature := signed.signature }) :
    ({ p with served := signed } : Pair).Estimated := by
  rw [same]
  exact h

theorem withSigned_eq_ok_iff (h : p.Estimated) :
    p.withSigned signed = .ok q ↔ signed.Renews p.served ∧ q = { p with served := signed } := by
  constructor
  · intro hok
    obtain ⟨hq, hsame⟩ := withSigned_spec hok
    rw [← h] at hsame
    simp only [withSigned, ite_error_eq_ok_iff, not_or] at hok
    obtain ⟨-, -, -, -, -, ⟨hgiven, hfresh⟩, -⟩ := hok
    exact ⟨⟨hsame, hgiven, hfresh⟩, hq⟩
  · rintro ⟨⟨hsame, hgiven, hfresh⟩, rfl⟩
    have hgas : signed.gas = p.estimate := by
      rw [hsame]
      exact h
    rw [hsame] at hgas hgiven hfresh ⊢
    simp [withSigned, hgas, hgiven, hfresh]

theorem withSigned_unknown
    (h : signed.sender ≠ p.served.sender ∨ signed.nonce ≠ p.served.nonce) :
    p.withSigned signed = .error (.unknownOperation signed.sender signed.nonce) :=
  if_pos h

theorem refused_of_withSigned {e : AttachError} (h : p.Estimated)
    (herror : p.withSigned signed = .error e) : signed.Refused p.served e := by
  have hestimate : p.served.gas = p.estimate := h
  simp only [withSigned, ← hestimate, ite_error_eq_error_iff] at herror
  rcases herror with ⟨hother, rfl⟩ | ⟨hknown, herror⟩
  · exact .unknown hother
  simp only [not_or, not_not] at hknown
  obtain ⟨hsender, hnonce⟩ := hknown
  rcases herror with ⟨hgas, rfl⟩ | ⟨-, herror⟩
  · exact .mismatch hsender hnonce (.gas hgas)
  rcases herror with ⟨hcall, rfl⟩ | ⟨-, herror⟩
  · exact .mismatch hsender hnonce (.callData hcall)
  rcases herror with ⟨hcode, rfl⟩ | ⟨-, herror⟩
  · exact .mismatch hsender hnonce (.code hcode)
  rcases herror with ⟨hfees, rfl⟩ | ⟨-, herror⟩
  · exact .mismatch hsender hnonce (.fees hfees)
  rcases herror with ⟨hold, rfl⟩ | ⟨-, herror⟩
  · exact .mismatch hsender hnonce (.signature hold)
  · cases herror

/-- The pair after an attempt to sign its operation anew. -/
def resign (p : Pair) (signed : Operation) : Pair :=
  match p.withSigned signed with
  | .ok q => q
  | .error _ => p

def resignAll (p : Pair) (attempts : List Operation) : Pair := attempts.foldl resign p

end Pair

/-- The attempts that differ from the stored operation in nothing but a signature. -/
def Operation.renewals (stored : Operation) (attempts : List Operation) : List Operation :=
  attempts.filter fun a => decide (a = { stored with signature := a.signature } ∧ a.signature ≠ [])

theorem Operation.renewals_congr {stored stored' : Operation}
    (h : stored' = { stored with signature := stored'.signature }) (attempts : List Operation) :
    stored'.renewals attempts = stored.renewals attempts := by
  have hsame : ∀ signature : Bytes, ({ stored' with signature } : Operation) =
      { stored with signature } := by
    intro signature
    rw [h]
  simp only [renewals, hsame]

theorem Operation.last_renewal_same (stored : Operation) (attempts : List Operation) :
    (stored.renewals attempts).getLastD stored =
      { stored with signature := ((stored.renewals attempts).getLastD stored).signature } := by
  have hlast : (stored.renewals attempts).getLastD stored ∈ stored :: stored.renewals attempts :=
    List.getLastD_mem_cons
  rcases List.mem_cons.mp hlast with hstored | hrenewal
  · rw [hstored]
  · have hsame := (List.mem_filter.mp hrenewal).2
    simp only [decide_eq_true_eq] at hsame
    exact hsame.1

namespace Pair

variable {p : Pair}

/-- An attempt with the stored signature is refused, but then it is the stored operation itself. -/
theorem resign_eq (h : p.Estimated) (signed : Operation) :
    p.resign signed =
      if signed = { p.served with signature := signed.signature } ∧ signed.signature ≠ [] then
        { p with served := signed }
      else p := by
  unfold resign
  cases hsigned : p.withSigned signed with
  | ok q =>
    obtain ⟨hrenews, rfl⟩ := (withSigned_eq_ok_iff h).mp hsigned
    rw [if_pos ⟨hrenews.same, hrenews.given⟩]
  | error e =>
    by_cases hsame : signed = { p.served with signature := signed.signature } ∧
        signed.signature ≠ []
    · rw [if_pos hsame]
      by_cases hold : signed.signature = p.served.signature
      · have heq : signed = p.served := by
          rw [hsame.1, hold]
        rw [heq]
      · have hok := (withSigned_eq_ok_iff h).mpr ⟨⟨hsame.1, hsame.2, hold⟩, rfl⟩
        cases hsigned.symm.trans hok
    · rw [if_neg hsame]

/-- Through any attempts, a pair comes to serve the last one that renews the signature alone. -/
theorem resignAll_eq (h : p.Estimated) (attempts : List Operation) :
    p.resignAll attempts =
      { p with served := (p.served.renewals attempts).getLastD p.served } := by
  induction attempts generalizing p with
  | nil => rfl
  | cons signed attempts ih =>
    have hstep := resign_eq h signed
    by_cases hsame : signed = { p.served with signature := signed.signature } ∧
        signed.signature ≠ []
    · rw [if_pos hsame] at hstep
      have hrest := ih (h.serves hsame.1)
      rw [Operation.renewals_congr hsame.1] at hrest
      have hrenewals : p.served.renewals (signed :: attempts) =
          signed :: p.served.renewals attempts := List.filter_cons_of_pos (by simpa using hsame)
      rw [resignAll, List.foldl_cons, hstep, hrenewals, List.getLastD_cons]
      exact hrest
    · rw [if_neg hsame] at hstep
      have hrenewals : p.served.renewals (signed :: attempts) = p.served.renewals attempts :=
        List.filter_cons_of_neg (by simpa using hsame)
      rw [resignAll, List.foldl_cons, hstep, hrenewals]
      exact ih h

end Pair

theorem run_estimated (config : Config) (signer : Signer) (es : List Event) :
    ∀ e ∈ ((idle config signer).after es).pending, e.2.pair.Estimated := by
  intro e he
  obtain ⟨id, before, -, hb⟩ := run_pending_backed config signer es e he
  obtain @⟨op, request, block, answer, l, signature, -, -, -, -, -, hserved⟩ := hb
  rw [Pair.Estimated, hserved]
  rfl

/-- What a pair serves can be signed anew and not changed. All pending pairs of a run carry the gas
fields they record, and such a pair takes an operation exactly if it has a new signature and is the
stored one in all other fields. Then it serves that operation, and still carries its gas fields. An
operation of another sender or nonce is unknown to it, and of any other it says what does not match.
So after any attempts it serves the last of them that differs from the first served operation in
nothing but a signature. -/
theorem Pair.resigned_exactly (config : Config) (signer : Signer) :
    (∀ es, ∀ e ∈ ((idle config signer).after es).pending, e.2.pair.Estimated) ∧
    ∀ p : Pair, p.Estimated →
      (∀ signed q,
        p.withSigned signed = .ok q ↔ signed.Renews p.served ∧ q = { p with served := signed }) ∧
      (∀ signed q, p.withSigned signed = .ok q → q.Estimated) ∧
      (∀ signed : Operation, signed.sender ≠ p.served.sender ∨ signed.nonce ≠ p.served.nonce →
        p.withSigned signed = .error (.unknownOperation signed.sender signed.nonce)) ∧
      (∀ signed e, p.withSigned signed = .error e → signed.Refused p.served e) ∧
      ∀ attempts,
        p.resignAll attempts =
          { p with served := (p.served.renewals attempts).getLastD p.served } ∧
        (p.resignAll attempts).served =
          { p.served with signature := (p.resignAll attempts).served.signature } ∧
        (p.resignAll attempts).Estimated := by
  refine ⟨run_estimated config signer, fun p h => ⟨fun signed q => withSigned_eq_ok_iff h, ?_,
    fun signed => withSigned_unknown, fun signed e => refused_of_withSigned h, ?_⟩⟩
  · intro signed q hok
    obtain ⟨hrenews, rfl⟩ := (withSigned_eq_ok_iff h).mp hok
    exact h.serves hrenews.same
  · intro attempts
    have hlast := p.served.last_renewal_same attempts
    rw [resignAll_eq h attempts]
    exact ⟨rfl, hlast, h.serves hlast⟩

/-- The pair of the first request takes two new signatures, but no other call data in between, no
other nonce and no signature of no bytes. -/
theorem Sample.served_resigned :
    ∃ p : Pair,
      (firstKey, ⟨p, 0⟩) ∈ ((idle config Sample.signer).after (first.served "a" 0)).pending ∧
      p.Estimated ∧
      let again (byte : UInt8) : Operation := { p.served with signature := [byte] }
      let later : Operation := { again 1 with nonce := 1 }
      let altered : Operation := { again 2 with callData := [1] }
      let unsigned : Operation := { p.served with signature := [] }
      (again 1).Renews p.served ∧
      p.withSigned (again 1) = .ok { p with served := again 1 } ∧
      p.withSigned later = .error (.unknownOperation later.sender later.nonce) ∧
      p.resignAll [again 1, altered, again 3, unsigned, later] = { p with served := again 3 } := by
  obtain ⟨p, ⟨-, hserved⟩, hafter⟩ := first_paired
  obtain ⟨hpending, hpairs⟩ := Pair.resigned_exactly config Sample.signer
  have hstored : (firstKey, (⟨p, 0⟩ : PendingPair)) ∈
      ((idle config Sample.signer).after (first.served "a" 0)).pending := by
    rw [hafter]
    exact List.mem_cons_self
  have hestimated : p.Estimated := hpending _ _ hstored
  obtain ⟨htakes, -, hunknown, -, hattempts⟩ := hpairs p hestimated
  refine ⟨p, hstored, hestimated, ?_⟩
  intro again later altered unsigned
  have hsignature : p.served.signature = [] := by
    rw [hserved]
    rfl
  have hcallData : p.served.callData = [] := by
    rw [hserved]
    rfl
  have hnonce : p.served.nonce = 0 := by
    rw [hserved]
    rfl
  have hrenews : (again 1).Renews p.served := ⟨rfl, by simp [again], by simp [again, hsignature]⟩
  refine ⟨hrenews, (htakes _ _).mpr ⟨hrenews, rfl⟩, hunknown later (.inr ?_), ?_⟩
  · simp [later, hnonce]
  · rw [(hattempts _).1]
    simp [Operation.renewals, again, later, altered, unsigned, hcallData, hnonce]

end ComputeRelay
