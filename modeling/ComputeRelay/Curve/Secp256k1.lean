import ComputeRelay.Word

/-! The curve `y² = x³ + 7` over a prime field, its group law in projective form, and the square
roots that recover a point from its `x` coordinate. -/

namespace ComputeRelay.Secp256k1

def fieldOrder : Nat := 0xfffffffffffffffffffffffffffffffffffffffffffffffffffffffefffffc2f

def groupOrder : Nat := 0xfffffffffffffffffffffffffffffffebaaedce6af48a03bbfd25e8cd0364141

def powMod (m b e : Nat) : Nat :=
  if e = 0 then 1 % m
  else
    let h := powMod m (b * b % m) (e / 2)
    if e % 2 = 1 then h * b % m else h
termination_by e
decreasing_by omega

def invMod (m a : Nat) : Nat := powMod m a (m - 2)

def subMod (m a b : Nat) : Nat := (a + (m - b % m)) % m

/-- The point `(x / z², y / z³)`, or the neutral point when `z` is zero. -/
structure Point where
  x : Nat
  y : Nat
  z : Nat

namespace Point

def zero : Point := ⟨1, 1, 0⟩

def isZero (p : Point) : Bool := p.z == 0

def generator : Point :=
  ⟨0x79be667ef9dcbbac55a06295ce870b07029bfcdb2dce28d959f2815b16f81798,
   0x483ada7726a3c4655da4fbfc0e1108a8fd17b448a68554199c47d08ffb10d4b8, 1⟩

def double (p : Point) : Point :=
  let m := fieldOrder
  if p.isZero || p.y == 0 then zero
  else
    let b := p.y * p.y % m
    let c := b * b % m
    let d := 4 * p.x * b % m
    let e := 3 * p.x * p.x % m
    let x := subMod m (e * e) (2 * d)
    ⟨x, subMod m (e * subMod m d x) (8 * c), 2 * p.y * p.z % m⟩

def add (p q : Point) : Point :=
  let m := fieldOrder
  if p.isZero then q
  else if q.isZero then p
  else
    let pz := p.z * p.z % m
    let qz := q.z * q.z % m
    let u := p.x * qz % m
    let v := q.x * pz % m
    let s := p.y * qz % m * q.z % m
    let t := q.y * pz % m * p.z % m
    if u == v then
      if s == t then double p else zero
    else
      let h := subMod m v u
      let r := subMod m t s
      let hh := h * h % m
      let hhh := hh * h % m
      let w := u * hh % m
      let x := subMod m (r * r) (hhh + 2 * w)
      ⟨x, subMod m (r * subMod m w x) (s * hhh), p.z * q.z % m * h % m⟩

def mul (k : Nat) (p : Point) : Point :=
  if k = 0 then zero
  else
    let h := double (mul (k / 2) p)
    if k % 2 = 1 then add h p else h
termination_by k
decreasing_by omega

def affine? (p : Point) : Option (Nat × Nat) :=
  if p.isZero then none
  else
    let m := fieldOrder
    let i := invMod m p.z
    let ii := i * i % m
    some (p.x * ii % m, p.y * ii % m * i % m)

/-- The point with the given `x` whose `y` is odd or even as asked, when there is one. -/
def ofX? (x : Nat) (odd : Bool) : Option Point :=
  let m := fieldOrder
  if x < m then
    let square := (x * x % m * x + 7) % m
    let y := powMod m square ((m + 1) / 4)
    if y * y % m = square then
      some ⟨x, if (y % 2 == 1) == odd then y else (m - y) % m, 1⟩
    else none
  else none

end Point

end ComputeRelay.Secp256k1
