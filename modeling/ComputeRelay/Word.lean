import ComputeRelay.Bytes

/-! The numbers of the ledger: 256-bit words and hashes, 160-bit addresses, and their byte and
digit forms. -/

namespace ComputeRelay

/-- A 256-bit unsigned number. -/
abbrev Word := BitVec 256

/-- Thirty-two opaque bytes, held as the number they spell. -/
abbrev Hash := BitVec 256

/-- Twenty bytes naming an account, held as the number they spell. -/
abbrev Address := BitVec 160

namespace Word

def toBytes (w : Word) : Bytes := Bytes.ofNat 32 w.toNat

/-- The number spelled by the last thirty-two bytes. -/
def ofBytes (bs : Bytes) : Word := BitVec.ofNat 256 bs.toNat

def ofNat? (n : Nat) : Option Word :=
  let w := BitVec.ofNat 256 n
  if w.toNat = n then some w else none

def max : Word := BitVec.allOnes 256

def saturatingAdd (a b : Word) : Word :=
  (ofNat? (a.toNat + b.toNat)).getD max

def saturatingSub (a b : Word) : Word :=
  BitVec.ofNat 256 (a.toNat - b.toNat)

def checkedAdd (a b : Word) : Option Word :=
  ofNat? (a.toNat + b.toNat)

def larger (a b : Word) : Word :=
  if a.toNat ≤ b.toNat then b else a

/-- Lower-case hexadecimal without leading zeros, after `0x`. -/
def toHex (w : Word) : String :=
  String.ofList ('0' :: 'x' :: Nat.toDigits 16 w.toNat)

def toDecimal (w : Word) : String := toString w.toNat

def ofUInt64 (n : UInt64) : Word := BitVec.ofNat 256 n.toNat

theorem ofNat?_eq_some_iff {n : Nat} {w : Word} : ofNat? n = some w ↔ w.toNat = n := by
  simp only [ofNat?, Option.ite_none_right_eq_some, Option.some.injEq]
  constructor
  · rintro ⟨h, rfl⟩
    exact h
  · rintro rfl
    simp

theorem checkedAdd_eq_some_iff {a b c : Word} :
    checkedAdd a b = some c ↔ c.toNat = a.toNat + b.toNat :=
  ofNat?_eq_some_iff

end Word

namespace Address

def toBytes (a : Address) : Bytes := Bytes.ofNat 20 a.toNat

/-- The number spelled by the last twenty bytes. -/
def ofBytes (bs : Bytes) : Address := BitVec.ofNat 160 bs.toNat

/-- The address as a word with zero high bits. -/
def toWord (a : Address) : Word := a.setWidth 256

/-- The low 160 bits of a word. -/
def ofWord (w : Word) : Address := w.setWidth 160

def toHex (a : Address) : String := a.toBytes.toHex

end Address

namespace Hash

def toBytes (h : Hash) : Bytes := Word.toBytes h

def toHex (h : Hash) : String := Bytes.toHex (toBytes h)

end Hash

end ComputeRelay
