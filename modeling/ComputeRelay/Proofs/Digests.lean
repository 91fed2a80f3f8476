import ComputeRelay.Digest.Keccak

/-! The digest on natural numbers. A state is a function of the places of its lanes, and a place is
computed before it is looked up: so the digest of a closed message is computed lane by lane, and
each lane of a round once. -/

namespace ComputeRelay.Keccak

/-- The value at `n`, where `n` is computed first. -/
def look (f : Nat → Nat) : Nat → Nat
  | 0 => f 0
  | n + 1 => f (n + 1)

@[simp] theorem look_eq (f : Nat → Nat) (n : Nat) : look f n = f n := by
  cases n <;> rfl

def rotateNat (w n : Nat) : Nat := (w <<< n) % UInt64.size ||| w >>> (64 - n)

def columnNat (f : Nat → Nat) (x : Nat) : Nat :=
  look f x ^^^ look f (x + 5) ^^^ look f (x + 10) ^^^ look f (x + 15) ^^^ look f (x + 20)

def thetaNat (f : Nat → Nat) (i : Nat) : Nat :=
  f i ^^^ (look (columnNat f) ((i % 5 + 4) % 5) ^^^
    rotateNat (look (columnNat f) ((i % 5 + 1) % 5)) 1)

def rhoPiNat (f : Nat → Nat) (i : Nat) : Nat :=
  look (fun j => rotateNat (f j) (rotations.toList.getD j 0))
    ((i % 5 + 3 * (i / 5)) % 5 + 5 * (i % 5))

def chiNat (f : Nat → Nat) (i : Nat) : Nat :=
  f i ^^^ ((UInt64.size - 1 - look f (5 * (i / 5) + (i + 1) % 5)) &&&
    look f (5 * (i / 5) + (i + 2) % 5))

def roundNat (f : Nat → Nat) (constant : UInt64) : Nat → Nat
  | 0 => chiNat (rhoPiNat (thetaNat f)) 0 ^^^ constant.toNat
  | i + 1 => chiNat (rhoPiNat (thetaNat f)) (i + 1)

def absorbNat (f : Nat → Nat) (block : Bytes) : Nat → Nat :=
  roundConstants.foldl roundNat fun i =>
    f i ^^^ (((Bytes.chunks 8 block).map laneOfBytes).getD i 0).toNat

def lanesNat (message : Bytes) : Nat → Nat :=
  (Bytes.chunks rate (pad message)).foldl absorbNat fun _ => 0

/-- The function gives the lanes as numbers. -/
def Spells (f : Nat → Nat) (a : Lanes) : Prop := ∀ i (h : i < 25), f i = a[i].toNat

variable {f : Nat → Nat} {a : Lanes}

theorem rotateNat_eq (w : UInt64) {n : Nat} (hn : n < 64) :
    rotateNat w.toNat n = (rotateLeft w n).toNat := by
  have hw : w.toNat < 2 ^ 64 := w.toNat_lt
  unfold rotateNat rotateLeft
  by_cases h0 : n = 0
  · subst h0
    have hright : w.toNat >>> 64 = 0 := by rw [Nat.shiftRight_eq_div_pow, Nat.div_eq_of_lt hw]
    simp [hright]
  · have hleft : (UInt64.ofNat n).toNat = n := by
      simp only [UInt64.toNat_ofNat']
      omega
    have hright : (UInt64.ofNat (64 - n)).toNat = 64 - n := by
      simp only [UInt64.toNat_ofNat']
      omega
    have hn' : 64 - n < 64 := by omega
    rw [if_neg h0]
    simp only [UInt64.toNat_or, UInt64.toNat_shiftLeft, UInt64.toNat_shiftRight, hleft, hright,
      Nat.mod_eq_of_lt hn, Nat.mod_eq_of_lt hn']

theorem Spells.column (h : Spells f a) {x : Nat} (hx : x < 5) : columnNat f x =
    (a[x] ^^^ a[x + 5] ^^^ a[x + 10] ^^^ a[x + 15] ^^^ a[x + 20]).toNat := by
  simp only [columnNat, look_eq, UInt64.toNat_xor]
  rw [h x (by omega), h (x + 5) (by omega), h (x + 10) (by omega), h (x + 15) (by omega),
    h (x + 20) (by omega)]

theorem Spells.theta (h : Spells f a) : Spells (thetaNat f) (theta a) := by
  intro i hi
  have hleft := h.column (Nat.mod_lt (i % 5 + 4) (by decide : 0 < 5))
  have hright := h.column (Nat.mod_lt (i % 5 + 1) (by decide : 0 < 5))
  simp only [thetaNat, look_eq, hleft, hright, h i hi]
  rw [rotateNat_eq _ (by decide)]
  simp only [Keccak.theta, Vector.getElem_ofFn]
  rfl

theorem rotations_lt : ∀ j (hj : j < 25), rotations[j] < 64 := by decide

theorem Spells.rhoPi (h : Spells f a) : Spells (rhoPiNat f) (rhoPi a) := by
  have hlane : ∀ j (hj : j < 25), rotateNat (f j) (rotations.toList.getD j 0) =
      (rotateLeft a[j] rotations[j]).toNat := by
    intro j hj
    have hrot : rotations.toList.getD j 0 = rotations[j] := by
      simp [List.getD_eq_getElem?_getD, hj]
    rw [h j hj, hrot, rotateNat_eq _ (rotations_lt j hj)]
  intro i hi
  simp only [rhoPiNat, Keccak.rhoPi, look_eq, Vector.getElem_ofFn]
  exact hlane _ _

theorem Spells.chi (h : Spells f a) : Spells (chiNat f) (chi a) := by
  intro i hi
  simp only [chiNat, Keccak.chi, look_eq, Vector.getElem_ofFn, UInt64.toNat_xor,
    UInt64.toNat_and, UInt64.toNat_not]
  rw [h i hi, h _ (by omega), h _ (by omega)]

theorem Spells.round (h : Spells f a) (constant : UInt64) :
    Spells (roundNat f constant) (round a constant) := by
  have hb := h.theta.rhoPi.chi
  intro i hi
  cases i with
  | zero => simp [roundNat, Keccak.round, hb 0 hi]
  | succ i => simp [roundNat, Keccak.round, hb (i + 1) hi]

theorem Spells.permute (h : Spells f a) :
    Spells (roundConstants.foldl roundNat f) (permute a) := by
  unfold Keccak.permute
  induction roundConstants generalizing f a with
  | nil => exact h
  | cons constant rest ih =>
    rw [List.foldl_cons, List.foldl_cons]
    exact ih (h.round constant)

theorem Spells.absorb (h : Spells f a) (block : Bytes) :
    Spells (absorbNat f block) (absorb a block) := by
  simp only [absorbNat, Keccak.absorb]
  refine Spells.permute ?_
  intro i hi
  simp [h i hi, List.getD_eq_getElem?_getD]

theorem spells_lanes (message : Bytes) : Spells (lanesNat message) (lanes message) := by
  have hfold : ∀ {f : Nat → Nat} {a : Lanes} (blocks : List Bytes), Spells f a →
      Spells (blocks.foldl absorbNat f) (blocks.foldl absorb a) := by
    intro f a blocks h
    induction blocks generalizing f a with
    | nil => exact h
    | cons block rest ih =>
      rw [List.foldl_cons, List.foldl_cons]
      exact ih (h.absorb block)
  unfold lanesNat lanes
  refine hfold _ ?_
  intro i hi
  simp

end ComputeRelay.Keccak

namespace ComputeRelay

open Keccak

theorem keccak256_eq (message : Bytes) : keccak256 message =
    Word.ofBytes ((List.range 4).flatMap fun i =>
      bytesOfLane (UInt64.ofNat (lanesNat message i))) := by
  have h := spells_lanes message
  have htake : (lanes message).toList.take 4 =
      (List.range 4).map fun i => UInt64.ofNat (lanesNat message i) := by
    apply List.ext_getElem
    · simp
    · intro i hi _
      simp at hi
      simp [h i (by omega)]
  unfold keccak256
  rw [htake, List.flatMap_map]

end ComputeRelay
