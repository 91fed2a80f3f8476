import ComputeRelay.Proofs.Payloads
import ComputeRelay.Verification

/-! Which responses are accepted. The signature decides first, over all that the response says; what
it says is looked at only when the expected signer stands for it, and nothing but the request's id,
the success flag, the payload, the signature and the expected signer counts. -/

namespace ComputeRelay

namespace ErrorCode

theorem ofUInt32?_eq_some_iff {n : UInt32} {code : ErrorCode} :
    ofUInt32? n = some code ↔ n = code.toUInt32 := by
  constructor
  · intro h
    have hfound := List.find?_some h
    exact (beq_iff_eq.mp hfound).symm
  · rintro rfl
    cases code <;> rfl

theorem toNat_le (code : ErrorCode) : code.toUInt32.toNat ≤ 5 := by
  cases code <;> decide

theorem exists_of_le {n : UInt32} (h : n.toNat ≤ 5) : ∃ code : ErrorCode, n = code.toUInt32 := by
  have hnumber : ∀ k ≤ 5, ∃ code : ErrorCode, UInt32.ofNat k = code.toUInt32 := by
    intro k hk
    interval_cases k
    exacts [⟨.none, rfl⟩, ⟨.other, rfl⟩, ⟨.timeout, rfl⟩, ⟨.unreachable, rfl⟩, ⟨.malformed, rfl⟩,
      ⟨.remoteFailure, rfl⟩]
  obtain ⟨code, hcode⟩ := hnumber n.toNat h
  exact ⟨code, by rw [← hcode, UInt32.ofNat_toNat]⟩

theorem toUInt32_eq_zero_iff {code : ErrorCode} : code.toUInt32 = 0 ↔ code = .none := by
  cases code <;> decide

end ErrorCode

namespace ComputeResponse

variable {response : ComputeResponse} {request : ComputeRequest} {expected : Address}
  {payload : Payload}

/-- Who signed the response to the request. -/
def recovered (response : ComputeResponse) (request : ComputeRequest) :
    Except RecoverError Address :=
  recoverAddress (responseDigest request.requestId response.payload) response.signature

/-- The payload is one that a response to the request may hold. -/
structure Permits (response : ComputeResponse) (request : ComputeRequest) (payload : Payload) :
    Prop where
  requestId : payload.requestId = request.requestId
  known : payload.errorCode.toNat ≤ 5
  success : response.success = true ↔ payload.errorCode = 0
  words : response.success = true → payload.result ≠ [] ∧ payload.result.length % 32 = 0

/-- The response holds the encoding of a payload that it may hold. The length of a result fits into
a word, as that of every byte string in a memory does. -/
structure Delivers (response : ComputeResponse) (request : ComputeRequest) (payload : Payload) :
    Prop where
  encoded : response.payload = payload.encode
  fits : payload.result.length < 2 ^ 256
  permitted : response.Permits request payload

theorem checkPayload_of_permits (h : response.Permits request payload) :
    response.checkPayload request payload = .ok payload := by
  obtain ⟨code, hcode⟩ := ErrorCode.exists_of_le h.known
  have hflag : response.success = decide (code = .none) := by
    rw [Bool.eq_iff_iff, h.success, hcode, ErrorCode.toUInt32_eq_zero_iff, decide_eq_true_iff]
  have hresult : ¬ (response.success = true ∧
      (payload.result = [] ∨ payload.result.length % 32 ≠ 0)) := by
    rintro ⟨hsuccess, hempty | hodd⟩
    · exact (h.words hsuccess).1 hempty
    · exact hodd (h.words hsuccess).2
  rw [checkPayload, if_neg (not_not.mpr h.requestId), ErrorCode.ofUInt32?_eq_some_iff.mpr hcode]
  simp only [if_neg (not_not.mpr hflag), if_neg hresult]

theorem checkPayload_cases (response : ComputeResponse) (request : ComputeRequest)
    (payload : Payload) :
    response.Permits request payload ∨
      ∃ detail, response.checkPayload request payload = .error (.parameterMismatch detail) := by
  by_cases hid : payload.requestId = request.requestId
  · cases hfound : ErrorCode.ofUInt32? payload.errorCode with
    | none =>
      right
      rw [checkPayload, if_neg (not_not.mpr hid), hfound]
      exact ⟨_, rfl⟩
    | some code =>
      have hcode := ErrorCode.ofUInt32?_eq_some_iff.mp hfound
      by_cases hflag : response.success = decide (code = .none)
      · by_cases hresult : response.success = true ∧
          (payload.result = [] ∨ payload.result.length % 32 ≠ 0)
        · right
          rw [checkPayload, if_neg (not_not.mpr hid), hfound]
          simp only [if_neg (not_not.mpr hflag), if_pos hresult]
          exact ⟨_, rfl⟩
        · left
          refine ⟨hid, hcode ▸ code.toNat_le, ?_, ?_⟩
          · rw [hcode, ErrorCode.toUInt32_eq_zero_iff, hflag, decide_eq_true_iff]
          · intro hsuccess
            simpa [hsuccess] using hresult
      · right
        rw [checkPayload, if_neg (not_not.mpr hid), hfound]
        simp only [if_pos hflag]
        exact ⟨_, rfl⟩
  · right
    rw [checkPayload, if_pos hid]
    exact ⟨_, rfl⟩

theorem Delivers.decoded (h : response.Delivers request payload) :
    Payload.decode? response.payload = some payload :=
  Payload.decode?_eq_some_iff.mpr ⟨h.encoded, h.fits⟩

theorem verify_of_unrecovered {e : RecoverError} (h : response.recovered request = .error e) :
    response.verify request expected = .error (.signatureInvalid e.message) := by
  rw [recovered] at h
  rw [verify, h]

theorem verify_of_other {other : Address} (h : response.recovered request = .ok other)
    (hne : other ≠ expected) :
    response.verify request expected = .error (.signerMismatch expected other) := by
  rw [recovered] at h
  rw [verify, h]
  exact if_pos hne

theorem verify_of_delivers (signed : response.recovered request = .ok expected)
    (delivers : response.Delivers request payload) :
    response.verify request expected = .ok payload := by
  rw [recovered] at signed
  rw [verify, signed]
  simp only [ne_eq, not_true, if_false, delivers.decoded]
  exact checkPayload_of_permits delivers.permitted

theorem verify_of_undelivered (signed : response.recovered request = .ok expected)
    (undelivered : ∀ payload, ¬ response.Delivers request payload) :
    ∃ detail, response.verify request expected = .error (.parameterMismatch detail) := by
  rw [recovered] at signed
  rw [verify, signed]
  simp only [ne_eq, not_true, if_false]
  cases hdecoded : Payload.decode? response.payload with
  | none => exact ⟨_, rfl⟩
  | some payload =>
    obtain ⟨encoded, fits⟩ := Payload.decode?_eq_some_iff.mp hdecoded
    rcases response.checkPayload_cases request payload with permitted | mismatch
    · exact (undelivered payload ⟨encoded, fits, permitted⟩).elim
    · exact mismatch

/-- What a response is worth. The ways exclude each other. -/
inductive Verdict (response : ComputeResponse) (request : ComputeRequest) (expected : Address) :
    Except ResponseError Payload → Prop
  | unrecovered {e : RecoverError} (unsigned : response.recovered request = .error e) :
      Verdict response request expected (.error (.signatureInvalid e.message))
  | other {other : Address} (signed : response.recovered request = .ok other)
      (ne : other ≠ expected) :
      Verdict response request expected (.error (.signerMismatch expected other))
  | mismatch {detail : String} (signed : response.recovered request = .ok expected)
      (undelivered : ∀ payload, ¬ response.Delivers request payload) :
      Verdict response request expected (.error (.parameterMismatch detail))
  | accepted {payload : Payload} (signed : response.recovered request = .ok expected)
      (delivers : response.Delivers request payload) :
      Verdict response request expected (.ok payload)

theorem verify_verdict (response : ComputeResponse) (request : ComputeRequest)
    (expected : Address) :
    Verdict response request expected (response.verify request expected) := by
  cases hrecovered : response.recovered request with
  | error e =>
    rw [verify_of_unrecovered hrecovered]
    exact .unrecovered hrecovered
  | ok signer =>
    by_cases hsigner : signer = expected
    · subst hsigner
      by_cases hdelivers : ∃ payload, response.Delivers request payload
      · obtain ⟨payload, delivers⟩ := hdelivers
        rw [verify_of_delivers hrecovered delivers]
        exact .accepted hrecovered delivers
      · have undelivered := not_exists.mp hdelivers
        obtain ⟨detail, hverify⟩ := verify_of_undelivered hrecovered undelivered
        rw [hverify]
        exact .mismatch hrecovered undelivered
    · rw [verify_of_other hrecovered hsigner]
      exact .other hrecovered hsigner

theorem verdict_of_verify {verdict : Except ResponseError Payload}
    (h : response.verify request expected = verdict) :
    Verdict response request expected verdict := by
  rw [← h]
  exact verify_verdict response request expected

theorem verify_eq_ok_iff :
    response.verify request expected = .ok payload ↔
      response.recovered request = .ok expected ∧ response.Delivers request payload := by
  constructor
  · intro h
    cases verdict_of_verify h with
    | accepted signed delivers => exact ⟨signed, delivers⟩
  · rintro ⟨signed, delivers⟩
    exact verify_of_delivers signed delivers

theorem verify_signatureInvalid_iff {detail : String} :
    response.verify request expected = .error (.signatureInvalid detail) ↔
      ∃ e, response.recovered request = .error e ∧ detail = e.message := by
  constructor
  · intro h
    cases verdict_of_verify h with
    | unrecovered unsigned => exact ⟨_, unsigned, rfl⟩
  · rintro ⟨e, unsigned, rfl⟩
    exact verify_of_unrecovered unsigned

theorem verify_signerMismatch_iff {named other : Address} :
    response.verify request expected = .error (.signerMismatch named other) ↔
      named = expected ∧ response.recovered request = .ok other ∧ other ≠ expected := by
  constructor
  · intro h
    cases verdict_of_verify h with
    | other signed ne => exact ⟨rfl, signed, ne⟩
  · rintro ⟨rfl, signed, ne⟩
    exact verify_of_other signed ne

theorem verify_parameterMismatch_iff :
    (∃ detail, response.verify request expected = .error (.parameterMismatch detail)) ↔
      response.recovered request = .ok expected ∧
        ∀ payload, ¬ response.Delivers request payload := by
  constructor
  · rintro ⟨detail, h⟩
    cases verdict_of_verify h with
    | mismatch signed undelivered => exact ⟨signed, undelivered⟩
  · rintro ⟨signed, undelivered⟩
    exact verify_of_undelivered signed undelivered

/-- What becomes of a response, for every response, request and expected signer, and what has no
part in it: the signer that the response names, all of the request but its id, and where and when
the account was registered. -/
theorem verified_exactly (response : ComputeResponse) (request : ComputeRequest)
    (expected : Address) :
    (∀ payload, response.verify request expected = .ok payload ↔
      response.recovered request = .ok expected ∧ response.Delivers request payload) ∧
    (∀ detail, response.verify request expected = .error (.signatureInvalid detail) ↔
      ∃ e, response.recovered request = .error e ∧ detail = e.message) ∧
    (∀ named other, response.verify request expected = .error (.signerMismatch named other) ↔
      named = expected ∧ response.recovered request = .ok other ∧ other ≠ expected) ∧
    ((∃ detail, response.verify request expected = .error (.parameterMismatch detail)) ↔
      response.recovered request = .ok expected ∧
        ∀ payload, ¬ response.Delivers request payload) ∧
    ∀ signer account callParams createdAt (registration : Registration) endpoint block,
      ({ response with signer } : ComputeResponse).verify
          { request with account, callParams, createdAt }
          ({ registration with endpoint, block } : Registration).signer =
        response.verify request registration.signer :=
  ⟨fun _ => verify_eq_ok_iff, fun _ => verify_signatureInvalid_iff,
    fun _ _ => verify_signerMismatch_iff, verify_parameterMismatch_iff,
    fun _ _ _ _ _ _ _ => rfl⟩

end ComputeResponse

end ComputeRelay
