/-! Byte strings, their reading as big-endian numbers, and their hexadecimal form. -/

namespace ComputeRelay

abbrev Bytes := List UInt8

def hexDigit (n : Nat) : Char :=
  if n < 10 then Char.ofNat (48 + n) else Char.ofNat (87 + n)

def hexValue? (c : Char) : Option Nat :=
  if '0' ≤ c ∧ c ≤ '9' then some (c.toNat - 48)
  else if 'a' ≤ c ∧ c ≤ 'f' then some (c.toNat - 87)
  else if 'A' ≤ c ∧ c ≤ 'F' then some (c.toNat - 55)
  else none

namespace Bytes

/-- The low `width` bytes of a number, the most significant one first. -/
def ofNat : (width n : Nat) → Bytes
  | 0, _ => []
  | width + 1, n => UInt8.ofNat (n >>> (8 * width)) :: ofNat width n

/-- The number a byte string spells, the most significant byte first. -/
def toNat (bs : Bytes) : Nat :=
  bs.foldl (fun n b => n * 256 + b.toNat) 0

/-- Zero bytes that fill a string of `n` bytes up to a multiple of `unit`. -/
def padding (unit n : Nat) : Bytes :=
  List.replicate ((unit - n % unit) % unit) 0

def padRight (width : Nat) (bs : Bytes) : Bytes :=
  bs ++ List.replicate (width - bs.length) 0

/-- Cuts into pieces of `size` bytes; only the last one may be shorter. -/
def chunks (size : Nat) (bs : Bytes) : List Bytes :=
  if _h : bs = [] ∨ size = 0 then []
  else bs.take size :: chunks size (bs.drop size)
termination_by bs.length
decreasing_by
  have : 0 < bs.length := List.length_pos_iff.2 (by simp_all)
  simp only [List.length_drop]
  omega

def hexChars (bs : Bytes) : List Char :=
  bs.flatMap fun b => [hexDigit (b.toNat / 16), hexDigit (b.toNat % 16)]

/-- Two digits for each byte, after `0x`. -/
def toHex (bs : Bytes) : String :=
  String.ofList ('0' :: 'x' :: bs.hexChars)

/-- Reads an even number of hexadecimal digits of either case. -/
def ofHexChars? : List Char → Option Bytes
  | [] => some []
  | [_] => none
  | a :: b :: rest => do
    let hi ← hexValue? a
    let lo ← hexValue? b
    let bs ← ofHexChars? rest
    return UInt8.ofNat (16 * hi + lo) :: bs

/-- Drops one leading `0x` or `0X`. -/
def stripHexMark : List Char → List Char
  | '0' :: 'x' :: rest => rest
  | '0' :: 'X' :: rest => rest
  | cs => cs

/-- Reads hexadecimal digits with or without their `0x` mark. -/
def ofHex? (s : String) : Option Bytes :=
  ofHexChars? (stripHexMark s.toList)

@[simp] theorem length_ofNat (width n : Nat) : (ofNat width n).length = width := by
  induction width with
  | zero => rfl
  | succ width ih => simp [ofNat, ih]

end Bytes

end ComputeRelay
