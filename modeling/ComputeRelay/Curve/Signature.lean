import ComputeRelay.Curve.Secp256k1
import ComputeRelay.Digest.Keccak
import ComputeRelay.Digest.Sha256
import ComputeRelay.Text

/-! Recoverable signatures over 32-byte digests: 65 bytes `r ‖ s ‖ v` with a low `s`. Signing
derives its secret number from the key and the digest, so it gives one signature per digest. -/

namespace ComputeRelay

open Secp256k1

inductive RecoverError
  | length (size : Nat)
  | recoveryByte (byte : UInt8)
  | malformed (detail : String)
deriving DecidableEq, Repr

def RecoverError.message : RecoverError → String
  | .length size => s!"signature must be 65 bytes, got {size}"
  | .recoveryByte byte => s!"unsupported recovery byte {byte.toNat}"
  | .malformed detail => "malformed signature: " ++ detail

/-- The address of a public key: the low twenty bytes of the digest of its coordinates. -/
def addressOfPoint (x y : Nat) : Address :=
  Address.ofWord (keccak256 (Bytes.ofNat 32 x ++ Bytes.ofNat 32 y))

/-- The secret numbers to try for a key and a digest, in order; one in 2^127 is out of range. -/
def nonceCandidates (secret : Nat) (digest : Hash) (count : Nat) : List Nat :=
  let seed := Bytes.ofNat 32 secret ++ digest.toBytes
  let k := hmacSha256 (List.replicate 32 0) (List.replicate 32 1 ++ 0 :: seed)
  let v := hmacSha256 k (List.replicate 32 1)
  let k := hmacSha256 k (v ++ 1 :: seed)
  let v := hmacSha256 k v
  go count k v
where
  go : Nat → Bytes → Bytes → List Nat
    | 0, _, _ => []
    | count + 1, k, v =>
      let v := hmacSha256 k v
      let k' := hmacSha256 k (v ++ [0])
      v.toNat :: go count k' (hmacSha256 k' v)

/-- A private key: a number from one to the group order less one. -/
structure SigningKey where
  secret : Nat
  secret_pos : 0 < secret
  secret_lt : secret < groupOrder

namespace SigningKey

/-- A key of 24 to 32 bytes; a short one stands for the number it spells. -/
def ofBytes? (bs : Bytes) : Option SigningKey :=
  if 24 ≤ bs.length ∧ bs.length ≤ 32 then
    if h : 0 < bs.toNat ∧ bs.toNat < groupOrder then some ⟨bs.toNat, h.1, h.2⟩ else none
  else none

/-- Hexadecimal digits, with blanks around them and one `0x` in front allowed. -/
def ofHex? (s : String) : Option SigningKey :=
  let digits := match trimBlanks s.toList with
    | '0' :: 'x' :: rest => rest
    | cs => cs
  (Bytes.ofHexChars? digits).bind ofBytes?

def address (key : SigningKey) : Address :=
  match (Point.generator.mul key.secret).affine? with
  | some (x, y) => addressOfPoint x y
  | none => 0

/-- One signing attempt with the secret number `k`. -/
def signWith? (key : SigningKey) (digest : Hash) (k : Nat) : Option Bytes := do
  let n := groupOrder
  guard (0 < k ∧ k < n)
  let (x, y) ← (Point.generator.mul k).affine?
  let r := x % n
  let s := invMod n k * ((digest.toNat + r * key.secret) % n) % n
  guard (r ≠ 0 ∧ s ≠ 0)
  let high := n / 2 < s
  let s := if high then n - s else s
  let odd := (y % 2 == 1) != decide high
  let v := 27 + (if odd then 1 else 0) + (if n ≤ x then 2 else 0)
  return Bytes.ofNat 32 r ++ Bytes.ofNat 32 s ++ Bytes.ofNat 1 v

/-- The signature of a digest; `none` would need every candidate number to be out of range. -/
def sign? (key : SigningKey) (digest : Hash) : Option Bytes :=
  (nonceCandidates key.secret digest 4).findSome? (key.signWith? digest)

end SigningKey

/-- The public key that `r`, `s` and the parity of a signature lead to. -/
def recoverPoint? (digest : Hash) (r s : Nat) (odd : Bool) : Option (Nat × Nat) := do
  let n := groupOrder
  guard (0 < r ∧ r < n ∧ 0 < s ∧ s < n)
  let point ← Point.ofX? r odd
  let inv := invMod n r
  let u := (n - inv * (digest.toNat % n) % n) % n
  let v := inv * s % n
  let key ← ((Point.generator.mul u).add (point.mul v)).affine?
  guard (s ≤ n / 2)
  return key

/-- The account whose key signed a digest. The last byte is 0 or 1, or 27 or 28. -/
def recoverAddress (digest : Hash) (signature : Bytes) : Except RecoverError Address := do
  if signature.length ≠ 65 then throw (.length signature.length)
  let byte := signature.getD 64 0
  let odd ← match byte with
    | 0 | 27 => pure false
    | 1 | 28 => pure true
    | _ => throw (.recoveryByte byte)
  let r := Bytes.toNat (signature.take 32)
  let s := Bytes.toNat ((signature.drop 32).take 32)
  match recoverPoint? digest r s odd with
  | some (x, y) => return addressOfPoint x y
  | none => throw (.malformed "signature error")

end ComputeRelay
