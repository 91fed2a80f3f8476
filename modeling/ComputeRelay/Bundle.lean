import ComputeRelay.CacheWrite
import ComputeRelay.Pair

/-! Bundles: lists of operations to submit together, in which each cache write stands directly
before the operation it serves and the writes carry consecutive nonces. -/

namespace ComputeRelay

inductive BundleItem
  | single (op : Operation)
  | pair (p : Pair)
deriving DecidableEq, Repr

namespace BundleItem

def size : BundleItem → Nat
  | .single _ => 1
  | .pair _ => 2

def pair? : BundleItem → Option Pair
  | .single _ => none
  | .pair p => some p

def operations : BundleItem → List Operation
  | .single op => [op]
  | .pair p => p.operations

end BundleItem

/-- Puts pairs, in their order, into the places that pairs hold in a list of items. -/
def refillPairs : List BundleItem → List Pair → List BundleItem
  | [], _ => []
  | .single op :: items, pairs => .single op :: refillPairs items pairs
  | .pair _ :: items, p :: pairs => .pair p :: refillPairs items pairs
  | .pair p :: items, [] => .pair p :: refillPairs items []

/-- The pairs sorted by the nonces of their writes, in the places that pairs held before. Pairs of
one nonce keep their order. -/
def orderPairs (items : List BundleItem) : List BundleItem :=
  refillPairs items
    ((items.filterMap BundleItem.pair?).mergeSort fun p q =>
      decide (p.write.nonce.toNat ≤ q.write.nonce.toNat))

structure Bundle where
  ops : List Operation := []
  /-- Where the cache writes stand. -/
  pairPositions : List Nat := []
  requestIds : List Hash := []
  deferred : List BundleItem := []
deriving DecidableEq, Repr

/-- A bundle being filled, up to a number of operations. -/
structure Assembly where
  maxOps : Nat
  /-- The nonce that the next cache write has to carry. -/
  nextNonce : Word
  bundle : Bundle := {}
  pairDeferred : Bool := false

namespace Assembly

def start (maxOps : Nat) (nextNonce : Word) : Assembly := { maxOps, nextNonce }

def remaining (a : Assembly) : Nat := a.maxOps - a.bundle.ops.length

/-- Whether an item can be placed now: it fits whole, and a pair continues the nonces of the pairs
before it, none of which was deferred. -/
def accepts (a : Assembly) (item : BundleItem) : Bool :=
  decide (item.size ≤ a.remaining) &&
    match item with
    | .single _ => true
    | .pair p => !a.pairDeferred && p.write.nonce == a.nextNonce

/-- Places an item, or defers it. -/
def push (a : Assembly) (item : BundleItem) : Assembly :=
  let b := a.bundle
  if a.accepts item then
    match item with
    | .single op => { a with bundle := { b with ops := b.ops ++ [op] } }
    | .pair p =>
      { a with
        nextNonce := a.nextNonce + 1
        bundle := { b with
          ops := b.ops ++ p.operations
          pairPositions := b.pairPositions ++ [b.ops.length]
          requestIds := b.requestIds ++ [p.requestId] } }
  else
    { a with
      pairDeferred := a.pairDeferred || item.pair?.isSome
      bundle := { b with deferred := b.deferred ++ [item] } }

end Assembly

/-- Orders items and places as many as fit. -/
def Bundle.assemble (maxOps : Nat) (nextNonce : Word) (items : List BundleItem) : Bundle :=
  ((orderPairs items).foldl Assembly.push (.start maxOps nextNonce)).bundle

/-- The recorded positions in turn: a cache write, the served operation behind it, and the next
nonce. -/
def checkPositions (ops : List Operation) (systemAccount helper : Address) :
    List Nat → (expected : Word) → Except OrderError Unit
  | [], _ => .ok ()
  | position :: positions, expected =>
    match ops[position]? with
    | none => .error (.servedMissing position)
    | some write =>
      if !write.isCacheWrite systemAccount helper then .error (.notACacheWrite position)
      else if !(ops[position + 1]?).any (·.sender != systemAccount) then
        .error (.servedMissing position)
      else if write.nonce ≠ expected then .error (.nonceOrder position)
      else checkPositions ops systemAccount helper positions (expected + 1)

/-- Checks that the cache writes of a bundle are the recorded ones, each directly before an
operation of another account, with nonces that count up from the system account's next one. -/
def checkOrdering (ops : List Operation) (pairPositions : List Nat)
    (systemAccount helper : Address) (nextNonce : Word) : Except OrderError Unit := do
  checkPositions ops systemAccount helper pairPositions nextNonce
  match ops.zipIdx.find? fun (op, i) =>
      op.isCacheWrite systemAccount helper && !pairPositions.contains i with
  | some (_, i) => throw (.unpaired i)
  | none => return ()

end ComputeRelay
