import ComputeRelay.Word

/-! Argument lists in the ledger's call format: one 32-byte head per argument, and behind the heads
the tails that do not fit into one. Decoding takes canonical encodings only: re-encoding what it
answers gives back the bytes it was given. -/

namespace ComputeRelay.Abi

/-- An argument to encode: a word, or a tail that its head points to. -/
inductive Argument
  | word (w : Word)
  | tail (t : Bytes)

def tailsSize : List Argument → Nat
  | [] => 0
  | .word _ :: rest => tailsSize rest
  | .tail t :: rest => t.length + tailsSize rest

/-- The heads, where the first tail still to come starts at `offset`. -/
def heads : (offset : Nat) → List Argument → Bytes
  | _, [] => []
  | offset, .word w :: rest => w.toBytes ++ heads offset rest
  | offset, .tail t :: rest => Bytes.ofNat 32 offset ++ heads (offset + t.length) rest

def tails : List Argument → Bytes
  | [] => []
  | .word _ :: rest => tails rest
  | .tail t :: rest => t ++ tails rest

def encode (arguments : List Argument) : Bytes :=
  heads (32 * arguments.length) arguments ++ tails arguments

/-- A byte string as a tail: its length, its bytes, and zero bytes up to a whole word. -/
def bytesTail (bs : Bytes) : Bytes :=
  Bytes.ofNat 32 bs.length ++ (bs ++ Bytes.padding 32 bs.length)

namespace Argument

def bytes (bs : Bytes) : Argument := .tail (bytesTail bs)

def text (s : String) : Argument := .bytes s.toUTF8.toList

def address (a : Address) : Argument := .word a.toWord

/-- A nested argument list that holds a tail. -/
def tuple (arguments : List Argument) : Argument := .tail (encode arguments)

end Argument

/-- What an encoded argument holds. -/
inductive Kind
  | word
  | bytes
deriving DecidableEq, Repr

inductive Value
  | word (w : Word)
  | bytes (bs : Bytes)
deriving DecidableEq, Repr

def Value.argument : Value → Argument
  | .word w => .word w
  | .bytes bs => .bytes bs

def Value.kind : Value → Kind
  | .word _ => .word
  | .bytes _ => .bytes

def encodeValues (values : List Value) : Bytes := encode (values.map Value.argument)

/-- The byte string at the front of the tails, and the tails behind it. -/
def readTail? (tails : Bytes) : Option (Bytes × Bytes) :=
  let size := Bytes.toNat (tails.take 32)
  let body := tails.drop 32
  if tails.length < 32 ∨ body.length < size then none
  else some (body.take size, body.drop (size + (Bytes.padding 32 size).length))

def readValues? : List Kind → (heads tails : Bytes) → Option (List Value)
  | [], _, _ => some []
  | .word :: kinds, heads, tails => do
    let values ← readValues? kinds (heads.drop 32) tails
    return .word (Word.ofBytes (heads.take 32)) :: values
  | .bytes :: kinds, heads, tails => do
    let (bs, tails) ← readTail? tails
    let values ← readValues? kinds (heads.drop 32) tails
    return .bytes bs :: values

/-- The values that a canonical encoding holds. -/
def decode? (kinds : List Kind) (bs : Bytes) : Option (List Value) := do
  let size := 32 * kinds.length
  let values ← readValues? kinds (bs.take size) (bs.drop size)
  guard (encodeValues values = bs)
  return values

/-- The number of a word that has `bits` bits at most. -/
def uint? (bits : Nat) (w : Word) : Option Nat :=
  if w >>> bits = 0 then some w.toNat else none

def address? (w : Word) : Option Address := (uint? 160 w).map (BitVec.ofNat 160)

/-- A truth value takes one byte, and every byte but zero is true. -/
def bool? (w : Word) : Option Bool := (uint? 8 w).map (· != 0)

def text? (bs : Bytes) : Option String := String.fromUTF8? ⟨bs.toArray⟩

def dropSelector? (selector bs : Bytes) : Option Bytes :=
  if bs.take 4 = selector then some (bs.drop 4) else none

end ComputeRelay.Abi
