import ComputeRelay.Curve.Signature
import ComputeRelay.Failure
import ComputeRelay.Payload

/-! Checking a response against its request and the signer that had to answer it. -/

namespace ComputeRelay

/-- A payload has to be for the request, with a known code that agrees with the success flag; a
result of a success is a positive number of whole words. -/
def ComputeResponse.checkPayload (response : ComputeResponse) (request : ComputeRequest)
    (payload : Payload) : Except ResponseError Payload :=
  if payload.requestId ≠ request.requestId then
    .error (.parameterMismatch ("payload is for request " ++ payload.requestId.toHex ++
      ", expected " ++ request.requestId.toHex))
  else
    match ErrorCode.ofUInt32? payload.errorCode with
    | none =>
      .error (.parameterMismatch ("unknown error code " ++ toString payload.errorCode.toNat))
    | some code =>
      if response.success ≠ decide (code = .none) then
        .error (.parameterMismatch ("success flag " ++ toString response.success ++
          " disagrees with error code " ++ code.name))
      else if response.success ∧ (payload.result = [] ∨ payload.result.length % 32 ≠ 0) then
        .error (.parameterMismatch ("result of " ++ toString payload.result.length ++
          " bytes is not a whole number of words"))
      else .ok payload

/-- The payload of a response that `expected` signed for the request. The signature is looked at
first, so only a signed payload can be found wanting. -/
def ComputeResponse.verify (response : ComputeResponse) (request : ComputeRequest)
    (expected : Address) : Except ResponseError Payload :=
  match recoverAddress (responseDigest request.requestId response.payload) response.signature with
  | .error e => .error (.signatureInvalid e.message)
  | .ok recovered =>
    if recovered ≠ expected then .error (.signerMismatch expected recovered)
    else
      match Payload.decode? response.payload with
      | none =>
        .error (.parameterMismatch
          ("payload does not decode: " ++ "not the canonical encoding of a payload"))
      | some payload => response.checkPayload request payload

end ComputeRelay
