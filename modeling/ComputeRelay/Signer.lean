import ComputeRelay.Curve.Signature
import ComputeRelay.Failure
import ComputeRelay.Payload

/-! Signers, and the responses they sign. -/

namespace ComputeRelay

/-- An account that signs 32-byte digests with 65-byte signatures. -/
structure Signer where
  address : Address
  sign : Hash → Except SignerError Bytes

namespace SigningKey

def signer (key : SigningKey) : Signer where
  address := key.address
  sign digest := match key.sign? digest with
    | some signature => .ok signature
    | none => .error (.signing "signature error")

def signerOfHex (s : String) : Except SignerError Signer :=
  match ofHex? s with
  | some key => .ok key.signer
  | none => .error .invalidKey

end SigningKey

def Signer.describe (s : Signer) : String :=
  "LocalSigner \x7b address: " ++ s.address.toHex ++ " \x7d"

def Signer.respond (s : Signer) (requestId : Hash) (code : ErrorCode) (result : Bytes) :
    Except SignerError ComputeResponse := do
  let payload := (Payload.mk requestId code.toUInt32 result).encode
  let signature ← s.sign (responseDigest requestId payload)
  return ⟨code = .none, payload, s.address, signature⟩

end ComputeRelay
