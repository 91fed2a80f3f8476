import ComputeRelay.Json.Value
import ComputeRelay.Text
import ComputeRelay.Word

/-! How single values are read from and written as JSON: numbers, byte strings, addresses and
hashes. -/

namespace ComputeRelay

/-- The value of digits in a base up to sixteen; underscores are skipped. -/
def digitsValue? (base : Nat) : List Char → (value : Nat) → Option Nat
  | [], value => some value
  | c :: cs, value =>
    if c = '_' then digitsValue? base cs value
    else do
      let d ← hexValue? c
      if d < base then digitsValue? base cs (value * base + d) else none

/-- Splits off the mark of a base: `0x`, `0o` or `0b` in either case; otherwise base ten. -/
def splitBase : List Char → Nat × List Char
  | '0' :: 'x' :: cs => (16, cs)
  | '0' :: 'X' :: cs => (16, cs)
  | '0' :: 'o' :: cs => (8, cs)
  | '0' :: 'O' :: cs => (8, cs)
  | '0' :: 'b' :: cs => (2, cs)
  | '0' :: 'B' :: cs => (2, cs)
  | cs => (10, cs)

/-- The word that digits spell after an optional mark of their base; no digits spell zero. -/
def Word.parse? (s : String) : Option Word :=
  let (base, cs) := splitBase s.toList
  (digitsValue? base cs 0).bind Word.ofNat?

def uint64? (s : String) : Option UInt64 :=
  (natural? s).bind fun n => if n < UInt64.size then some (UInt64.ofNat n) else none

namespace Json

def bool? : Json → Option Bool
  | .bool b => some b
  | _ => none

def text? : Json → Option String
  | .string s => some s
  | _ => none

def items? : Json → Option (List Json)
  | .array items => some items
  | _ => none

/-- A number below 2^64 written with digits alone. -/
def nat64? : Json → Option Nat
  | .number literal => (natural? literal).filter (· < UInt64.size)
  | _ => none

def uint64? (v : Json) : Option UInt64 := v.nat64?.map UInt64.ofNat

def uint32? (v : Json) : Option UInt32 :=
  (v.nat64?.filter (· < UInt32.size)).map UInt32.ofNat

def byte? (v : Json) : Option UInt8 :=
  (v.nat64?.filter (· < UInt8.size)).map UInt8.ofNat

/-- Digits in a string, or a number below 2^64. -/
def word? : Json → Option Word
  | .string s => Word.parse? s
  | v => v.nat64?.map (BitVec.ofNat 256)

/-- Hexadecimal digits in a string, or an array of byte values. -/
def bytes? : Json → Option Bytes
  | .string s => Bytes.ofHex? s
  | .array items => items.mapM byte?
  | _ => none

def sizedBytes? (size : Nat) (v : Json) : Option Bytes :=
  v.bytes?.filter (·.length = size)

def address? (v : Json) : Option Address := (v.sizedBytes? 20).map Address.ofBytes

def hash? (v : Json) : Option Hash := (v.sizedBytes? 32).map Word.ofBytes

/-- A value that may be left out by writing `null`. -/
def nullable? (read : Json → Option α) : Json → Option (Option α)
  | .null => some none
  | v => (read v).map some

def ofUInt64 (n : UInt64) : Json := .ofNat n.toNat

def ofWord (w : Word) : Json := .string w.toHex

def ofBytes (bs : Bytes) : Json := .string bs.toHex

def ofAddress (a : Address) : Json := .string a.toHex

def ofHash (h : Hash) : Json := .string (Hash.toHex h)

end Json

end ComputeRelay
