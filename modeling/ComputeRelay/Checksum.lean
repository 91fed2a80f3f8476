import ComputeRelay.Digest.Keccak

/-! Addresses for readers: the case of each letter checks the whole address. -/

namespace ComputeRelay

/-- The letters of the digits are upper case where the digest of the lower-case digits has a half
byte of eight or more. -/
def Address.checksummed (a : Address) : String :=
  let digits := a.toBytes.hexChars
  let digest := Bytes.hexChars (Hash.toBytes (keccak256 (digits.map fun c => c.toNat.toUInt8)))
  String.ofList ('0' :: 'x' ::
    List.zipWith (fun c d => if 8 ≤ (hexValue? d).getD 0 then c.toUpper else c) digits digest)

end ComputeRelay
