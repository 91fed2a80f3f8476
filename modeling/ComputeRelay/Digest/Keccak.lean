import ComputeRelay.Word

/-! The Keccak-256 digest: a sponge over 1600 bits that takes in 136 bytes at a time. -/

namespace ComputeRelay.Keccak

/-- Twenty-five lanes of 64 bits; lane `(x, y)` stands at `x + 5 * y`. -/
abbrev Lanes := Vector UInt64 25

def rotateLeft (w : UInt64) (n : Nat) : UInt64 :=
  if n = 0 then w else (w <<< UInt64.ofNat n) ||| (w >>> UInt64.ofNat (64 - n))

def rotations : Vector Nat 25 :=
  #v[0, 1, 62, 28, 27, 36, 44, 6, 55, 20, 3, 10, 43, 25, 39, 41, 45, 15, 21, 8, 18, 2, 61, 56, 14]

def roundConstants : List UInt64 :=
  [0x0000000000000001, 0x0000000000008082, 0x800000000000808a, 0x8000000080008000,
   0x000000000000808b, 0x0000000080000001, 0x8000000080008081, 0x8000000000008009,
   0x000000000000008a, 0x0000000000000088, 0x0000000080008009, 0x000000008000000a,
   0x000000008000808b, 0x800000000000008b, 0x8000000000008089, 0x8000000000008003,
   0x8000000000008002, 0x8000000000000080, 0x000000000000800a, 0x800000008000000a,
   0x8000000080008081, 0x8000000000008080, 0x0000000080000001, 0x8000000080008008]

/-- Adds to every lane the parities of two neighbouring columns. -/
def theta (a : Lanes) : Lanes :=
  let column : Vector UInt64 5 := Vector.ofFn fun x =>
    a[x.val] ^^^ a[x.val + 5] ^^^ a[x.val + 10] ^^^ a[x.val + 15] ^^^ a[x.val + 20]
  let d : Vector UInt64 5 := Vector.ofFn fun x =>
    column[(x.val + 4) % 5] ^^^ rotateLeft column[(x.val + 1) % 5] 1
  Vector.ofFn fun i => a[i.val] ^^^ d[i.val % 5]

/-- Rotates the lanes and moves lane `(x, y)` to `(y, 2 * x + 3 * y)`. -/
def rhoPi (a : Lanes) : Lanes :=
  Vector.ofFn fun i =>
    let j := (i.val % 5 + 3 * (i.val / 5)) % 5 + 5 * (i.val % 5)
    have : j < 25 := by omega
    rotateLeft a[j] rotations[j]

/-- Combines each lane with the next two of its row. -/
def chi (a : Lanes) : Lanes :=
  Vector.ofFn fun i =>
    let row := 5 * (i.val / 5)
    have : row ≤ 20 := by omega
    a[i.val] ^^^ ((~~~ a[row + (i.val + 1) % 5]) &&& a[row + (i.val + 2) % 5])

def round (a : Lanes) (constant : UInt64) : Lanes :=
  let b := chi (rhoPi (theta a))
  b.set 0 (b[0] ^^^ constant)

def permute (a : Lanes) : Lanes :=
  roundConstants.foldl round a

/-- The number of bytes taken in between two permutations. -/
def rate : Nat := 136

/-- The number eight bytes spell, the least significant one first. -/
def laneOfBytes (bs : Bytes) : UInt64 :=
  bs.foldr (fun b n => (n <<< 8) ||| b.toUInt64) 0

def bytesOfLane (w : UInt64) : Bytes :=
  (List.range 8).map fun i => (w >>> UInt64.ofNat (8 * i)).toUInt8

def absorb (a : Lanes) (block : Bytes) : Lanes :=
  let lanes := ((Bytes.chunks 8 block).map laneOfBytes).toArray
  permute (Vector.ofFn fun i => a[i.val] ^^^ lanes.getD i.val 0)

/-- Ends a message: a one bit, zero bits up to a whole block, and a last one bit. -/
def pad (message : Bytes) : Bytes :=
  let gap := rate - message.length % rate
  if gap = 1 then message ++ [0x81]
  else message ++ 0x01 :: (List.replicate (gap - 2) 0 ++ [0x80])

def lanes (message : Bytes) : Lanes :=
  (Bytes.chunks rate (pad message)).foldl absorb (Vector.replicate 25 0)

end ComputeRelay.Keccak

namespace ComputeRelay

def keccak256 (message : Bytes) : Hash :=
  Word.ofBytes (((Keccak.lanes message).toList.take 4).flatMap Keccak.bytesOfLane)

end ComputeRelay
