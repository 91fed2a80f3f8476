import ComputeRelay.Proofs.Answerable
import ComputeRelay.Proofs.Verdicts

/-! Responses that a signer gives are checked against that signer. Whatever the code and the result,
the response is accepted for its own request and its own signer when it reports an error or holds
whole words, and never for another request or another signer; so the response that stands in for a
missing one is never refused. -/

namespace ComputeRelay

open Relay

section

variable {signer : Signer} {requestId : Hash} {code : ErrorCode} {result : Bytes}
  {response : ComputeResponse} {request : ComputeRequest} {expected : Address} {payload : Payload}

namespace Signer

theorem respond_eq (signer : Signer) (requestId : Hash) (code : ErrorCode) (result : Bytes) :
    signer.respond requestId code result =
      (signer.sign (responseDigest requestId
        (Payload.mk requestId code.toUInt32 result).encode)).map fun signature =>
          ⟨code = .none, (Payload.mk requestId code.toUInt32 result).encode, signer.address,
            signature⟩ := by
  rw [respond]
  cases signer.sign (responseDigest requestId (Payload.mk requestId code.toUInt32 result).encode)
  · rfl
  · rfl

theorem respond_eq_ok_iff :
    signer.respond requestId code result = .ok response ↔
      ∃ signature, signer.sign (responseDigest requestId
          (Payload.mk requestId code.toUInt32 result).encode) = .ok signature ∧
        response = ⟨code = .none, (Payload.mk requestId code.toUInt32 result).encode,
          signer.address, signature⟩ := by
  rw [respond_eq]
  cases signer.sign (responseDigest requestId (Payload.mk requestId code.toUInt32 result).encode)
    with
  | error e => simp [Except.map]
  | ok signature => simp [Except.map, eq_comm]

/-- A response holds its own payload and no other one; whether the payload may be held is a matter
of the code and of the result. -/
theorem delivers_iff (h : signer.respond requestId code result = .ok response) :
    response.Delivers request payload ↔
      request.requestId = requestId ∧ (code ≠ .none ∨ result ≠ [] ∧ result.length % 32 = 0) ∧
        result.length < 2 ^ 256 ∧ payload = ⟨requestId, code.toUInt32, result⟩ := by
  obtain ⟨signature, -, rfl⟩ := respond_eq_ok_iff.mp h
  have hflag : decide (code = .none) = true ↔ code.toUInt32 = 0 := by
    rw [decide_eq_true_iff, ErrorCode.toUInt32_eq_zero_iff]
  constructor
  · rintro ⟨encoded, fits, permitted⟩
    obtain rfl := Payload.encode_injective encoded
    refine ⟨permitted.requestId.symm, ?_, fits, rfl⟩
    by_cases hcode : code = .none
    · exact .inr (permitted.words (decide_eq_true hcode))
    · exact .inl hcode
  · rintro ⟨hid, hresult, fits, rfl⟩
    refine ⟨rfl, fits, hid.symm, code.toNat_le, hflag, ?_⟩
    intro hsuccess
    rcases hresult with hcode | hwords
    · exact absurd (of_decide_eq_true hsuccess) hcode
    · exact hwords

variable (recovers : ∀ digest signature, signer.sign digest = .ok signature →
  recoverAddress digest signature = .ok signer.address)

include recovers in
theorem recovered_respond (h : signer.respond requestId code result = .ok response)
    (hid : request.requestId = requestId) : response.recovered request = .ok signer.address := by
  obtain ⟨signature, hsign, rfl⟩ := respond_eq_ok_iff.mp h
  rw [ComputeResponse.recovered, hid]
  exact recovers _ _ hsign

include recovers in
theorem verify_respond_iff (h : signer.respond requestId code result = .ok response) :
    response.verify request expected = .ok payload ↔
      request.requestId = requestId ∧ expected = signer.address ∧
        (code ≠ .none ∨ result ≠ [] ∧ result.length % 32 = 0) ∧ result.length < 2 ^ 256 ∧
          payload = ⟨requestId, code.toUInt32, result⟩ := by
  rw [ComputeResponse.verify_eq_ok_iff, delivers_iff h]
  constructor
  · rintro ⟨signed, hid, hresult⟩
    rw [recovered_respond recovers h hid] at signed
    exact ⟨hid, (Except.ok.inj signed).symm, hresult⟩
  · rintro ⟨hid, rfl, hresult⟩
    exact ⟨recovered_respond recovers h hid, hid, hresult⟩

include recovers in
theorem verify_respond_error (h : signer.respond requestId code result = .ok response)
    (hother : request.requestId ≠ requestId ∨ expected ≠ signer.address) :
    ∃ e, response.verify request expected = .error e := by
  cases hverify : response.verify request expected with
  | error e => exact ⟨e, rfl⟩
  | ok payload =>
    obtain ⟨hid, haddress, -⟩ := (verify_respond_iff recovers h).mp hverify
    rcases hother with hne | hne
    · exact absurd hid hne
    · exact absurd haddress hne

end Signer

theorem ServiceError.code_ne_none (e : ServiceError) : e.code ≠ .none := by
  cases e <;> simp [code]

/-- There is no stand-in response only when the signer does not sign it. -/
theorem standInResponse_eq {r : Relay}
    (recovers : ∀ digest signature, r.writer.signer.sign digest = .ok signature →
      recoverAddress digest signature = .ok r.writer.signer.address)
    (request : ComputeRequest) (e : ServiceError) :
    r.standInResponse request e.code =
      (r.writer.signer.respond request.requestId e.code []).mapError .signer := by
  rw [standInResponse]
  cases hrespond : r.writer.signer.respond request.requestId e.code [] with
  | error e => rfl
  | ok response =>
    have hverify : response.verify request r.writer.signer.address =
        .ok ⟨request.requestId, e.code.toUInt32, []⟩ :=
      (Signer.verify_respond_iff recovers hrespond).mpr
        ⟨rfl, rfl, .inl e.code_ne_none, by decide, rfl⟩
    simp only [hverify]
    rfl

end

/-- What becomes of a response that a signer gives, for every signer whose signatures recover to its
address. There is a response whenever the signer signs its digest. It is accepted for its own
request and its own signer when its code is an error or its result is a positive number of whole
words (and has a length that fits into a word, as that of every byte string in a memory does), and
then it says what it was to say; for any other request or signer it is refused. The response that
stands in for a missing one is never refused. -/
theorem Signer.responses_accepted (signer : Signer)
    (recovers : ∀ digest signature, signer.sign digest = .ok signature →
      recoverAddress digest signature = .ok signer.address) :
    (∀ requestId code result, signer.respond requestId code result =
      (signer.sign (responseDigest requestId
        (Payload.mk requestId code.toUInt32 result).encode)).map fun signature =>
          ⟨code = .none, (Payload.mk requestId code.toUInt32 result).encode, signer.address,
            signature⟩) ∧
    (∀ requestId code result response, signer.respond requestId code result = .ok response →
      (∀ request expected payload, response.verify request expected = .ok payload ↔
        request.requestId = requestId ∧ expected = signer.address ∧
          (code ≠ .none ∨ result ≠ [] ∧ result.length % 32 = 0) ∧ result.length < 2 ^ 256 ∧
            payload = ⟨requestId, code.toUInt32, result⟩) ∧
      ∀ request expected, request.requestId ≠ requestId ∨ expected ≠ signer.address →
        ∃ e, response.verify request expected = .error e) ∧
    ∀ (r : Relay) request (e : ServiceError), r.writer.signer = signer →
      r.standInResponse request e.code =
        (signer.respond request.requestId e.code []).mapError .signer := by
  refine ⟨signer.respond_eq, ?_, ?_⟩
  · intro requestId code result response h
    exact ⟨fun request expected payload => verify_respond_iff recovers h,
      fun request expected hother => verify_respond_error recovers h hother⟩
  · rintro r request e rfl
    exact standInResponse_eq recovers request e

namespace Sample

/-- What is signed for the first request when its service is not heard in time. -/
def lateDigest : Hash := 0x41529fae3e0ea78012cacda3cdbfe39ec0736e3e66b0fcdf93c95d84a8b7f569

/-- A signer of one digest, whose signature is the signer's own. -/
def lateSigner : Signer where
  address := 0x214d48eac9c5ae693a5557cddffbe9ee53a38d6a
  sign digest :=
    if digest = lateDigest then .ok signature else .error (.signing "signature error")

theorem lateSigner_recovers (digest : Hash) (signature : Bytes)
    (h : lateSigner.sign digest = .ok signature) :
    recoverAddress digest signature = .ok lateSigner.address := by
  have hpoint : recoverPoint? lateDigest 1 1 false =
      some (0xce087a1b7581c1660aa5a5ca6ded82df19d2c92a96a988121710bba59d0e7930,
        0x2f734fb4c3b59fe422ba9316f9798f0bf940315aa8ac3f07b06b4be94a57f1fe) := by
    decide +kernel
  simp only [lateSigner] at h
  split at h
  · rename_i hdigest
    rw [← Except.ok.inj h, hdigest, recovers hpoint]
    simp only [addressOfPoint, keccak256_eq]
    decide +kernel
  · cases h

theorem late_responds : lateSigner.respond firstKey .timeout [] =
    .ok ⟨false, (Payload.mk firstKey 2 []).encode, lateSigner.address, signature⟩ := by
  have hdigest : responseDigest firstKey (Payload.mk firstKey 2 []).encode = lateDigest := by
    simp only [responseDigest, messageHash, keccak256_eq]
    decide +kernel
  exact Signer.respond_eq_ok_iff.mpr ⟨signature, if_pos hdigest, rfl⟩

/-- The first request's stand-in response is given and is accepted, but not for the second request
and not as another signer's. -/
theorem late_accepted :
    let response : ComputeResponse :=
      ⟨false, (Payload.mk firstKey 2 []).encode, lateSigner.address, signature⟩
    (idle config lateSigner).standInResponse (request 0xaa firstKey) ServiceError.timeout.code =
        .ok response ∧
      response.verify (request 0xaa firstKey) lateSigner.address = .ok ⟨firstKey, 2, []⟩ ∧
      (∃ e, response.verify (request 0xab secondKey) lateSigner.address = .error e) ∧
      ∃ e, response.verify (request 0xaa firstKey) firstSigner = .error e := by
  intro response
  obtain ⟨-, haccepted, hstandIn⟩ := Signer.responses_accepted lateSigner lateSigner_recovers
  obtain ⟨hverify, hrefuse⟩ := haccepted _ _ _ _ late_responds
  have hcode : ErrorCode.timeout ≠ .none := by decide
  refine ⟨?_, ?_, hrefuse _ _ (.inl (by decide)), hrefuse _ _ (.inr (by decide))⟩
  · rw [hstandIn (idle config lateSigner) (request 0xaa firstKey) .timeout rfl]
    exact congrArg (Except.mapError Rejection.signer) late_responds
  · exact (hverify _ _ _).mpr ⟨rfl, rfl, .inl hcode, by decide, rfl⟩

end Sample

end ComputeRelay
