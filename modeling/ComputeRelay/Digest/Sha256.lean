import ComputeRelay.Word

/-! The SHA-256 digest, and the keyed digest (HMAC) built on it. -/

namespace ComputeRelay.Sha256

abbrev State := Vector UInt32 8

def initial : State :=
  #v[0x6a09e667, 0xbb67ae85, 0x3c6ef372, 0xa54ff53a, 0x510e527f, 0x9b05688c, 0x1f83d9ab, 0x5be0cd19]

def constants : Array UInt32 :=
  #[0x428a2f98, 0x71374491, 0xb5c0fbcf, 0xe9b5dba5, 0x3956c25b, 0x59f111f1, 0x923f82a4, 0xab1c5ed5,
    0xd807aa98, 0x12835b01, 0x243185be, 0x550c7dc3, 0x72be5d74, 0x80deb1fe, 0x9bdc06a7, 0xc19bf174,
    0xe49b69c1, 0xefbe4786, 0x0fc19dc6, 0x240ca1cc, 0x2de92c6f, 0x4a7484aa, 0x5cb0a9dc, 0x76f988da,
    0x983e5152, 0xa831c66d, 0xb00327c8, 0xbf597fc7, 0xc6e00bf3, 0xd5a79147, 0x06ca6351, 0x14292967,
    0x27b70a85, 0x2e1b2138, 0x4d2c6dfc, 0x53380d13, 0x650a7354, 0x766a0abb, 0x81c2c92e, 0x92722c85,
    0xa2bfe8a1, 0xa81a664b, 0xc24b8b70, 0xc76c51a3, 0xd192e819, 0xd6990624, 0xf40e3585, 0x106aa070,
    0x19a4c116, 0x1e376c08, 0x2748774c, 0x34b0bcb5, 0x391c0cb3, 0x4ed8aa4a, 0x5b9cca4f, 0x682e6ff3,
    0x748f82ee, 0x78a5636f, 0x84c87814, 0x8cc70208, 0x90befffa, 0xa4506ceb, 0xbef9a3f7, 0xc67178f2]

def rotateRight (w : UInt32) (n : UInt32) : UInt32 :=
  (w >>> n) ||| (w <<< (32 - n))

/-- The sixty-four words mixed in, from the sixteen words of a block. -/
def schedule (block : Bytes) : Array UInt32 :=
  let first := ((Bytes.chunks 4 block).map fun bs => UInt32.ofNat (Bytes.toNat bs)).toArray
  (List.range 48).foldl
    (fun w i =>
      let a := w.getD (i + 1) 0
      let b := w.getD (i + 14) 0
      let s0 := rotateRight a 7 ^^^ rotateRight a 18 ^^^ (a >>> 3)
      let s1 := rotateRight b 17 ^^^ rotateRight b 19 ^^^ (b >>> 10)
      w.push (w.getD i 0 + s0 + w.getD (i + 9) 0 + s1))
    first

def step (s : State) (k w : UInt32) : State :=
  let s1 := rotateRight s[4] 6 ^^^ rotateRight s[4] 11 ^^^ rotateRight s[4] 25
  let choice := (s[4] &&& s[5]) ^^^ ((~~~ s[4]) &&& s[6])
  let t1 := s[7] + s1 + choice + k + w
  let s0 := rotateRight s[0] 2 ^^^ rotateRight s[0] 13 ^^^ rotateRight s[0] 22
  let majority := (s[0] &&& s[1]) ^^^ (s[0] &&& s[2]) ^^^ (s[1] &&& s[2])
  #v[t1 + (s0 + majority), s[0], s[1], s[2], s[3] + t1, s[4], s[5], s[6]]

def compress (s : State) (block : Bytes) : State :=
  let w := schedule block
  let mixed := (List.range 64).foldl (fun t i => step t (constants.getD i 0) (w.getD i 0)) s
  s.zipWith (· + ·) mixed

/-- Ends a message: a one bit, zero bits, and the bit length, up to a multiple of 64 bytes. -/
def pad (message : Bytes) : Bytes :=
  message ++ 0x80 :: (Bytes.padding 64 (message.length + 9) ++ Bytes.ofNat 8 (8 * message.length))

end ComputeRelay.Sha256

namespace ComputeRelay

def sha256 (message : Bytes) : Bytes :=
  ((Bytes.chunks 64 (Sha256.pad message)).foldl Sha256.compress Sha256.initial).toList.flatMap
    fun w => Bytes.ofNat 4 w.toNat

def hmacSha256 (key message : Bytes) : Bytes :=
  let block := Bytes.padRight 64 (if key.length ≤ 64 then key else sha256 key)
  sha256 (block.map (· ^^^ 0x5c) ++ sha256 (block.map (· ^^^ 0x36) ++ message))

end ComputeRelay
