import ComputeRelay.Contract

/-! The payload of a response, `(bytes32,uint32,bytes)`, and the digests that are signed. -/

namespace ComputeRelay

open Abi

structure Payload where
  requestId : Hash
  errorCode : UInt32
  result : Bytes
deriving DecidableEq, Repr

namespace Payload

def encode (p : Payload) : Bytes :=
  encodeValues [.word p.requestId, .word (BitVec.ofNat 256 p.errorCode.toNat), .bytes p.result]

def decode? (bs : Bytes) : Option Payload := do
  let [.word requestId, .word code, .bytes result] ← Abi.decode? [.word, .word, .bytes] bs | none
  return ⟨requestId, UInt32.ofNat (← uint? 32 code), result⟩

end Payload

def messageHash (digest : Hash) : Hash :=
  keccak256 (0x19 :: "Ethereum Signed Message:\n32".toUTF8.toList ++ digest.toBytes)

/-- What the signer of a response signs. -/
def responseDigest (requestId : Hash) (payload : Bytes) : Hash :=
  messageHash (keccak256 (requestId.toBytes ++ Hash.toBytes (keccak256 payload)))

end ComputeRelay
