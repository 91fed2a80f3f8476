import ComputeRelay.CacheWrite

/-! Contract storage as far as simulations override it: the nonce of an account in the entry point,
and a byte string in the helper's cache. -/

namespace ComputeRelay

/-- One storage word and its new value. -/
structure StorageWrite where
  slot : Word
  value : Word
deriving DecidableEq, Repr

/-- The slot of a key in a mapping. -/
def mappingSlot (key mapping : Word) : Word := keccak256 (key.toBytes ++ mapping.toBytes)

/-- The slot at which the entry point keeps an account's sequence number for a nonce key: a mapping
at slot one from accounts to mappings from keys. -/
def sequenceSlot (sender : Address) (key : Word) : Word :=
  mappingSlot key (mappingSlot sender.toWord 1)

/-- Makes `nonce` the next one of an account. The high bits of a nonce are its key, the low 64 bits
its sequence number. -/
def nonceWrite (sender : Address) (nonce : Word) : StorageWrite :=
  ⟨sequenceSlot sender (nonce >>> 64), (nonce.setWidth 64).setWidth 256⟩

/-- The first bytes of a word; the rest of the word is zero. -/
def wordOfPrefix (bs : Bytes) : Word := Word.ofBytes (Bytes.padRight 32 bs)

/-- The writes that store a byte string at a slot. Below 32 bytes the string shares the slot with
twice its length; otherwise the slot holds twice the length and one more, and the bytes follow from
the slot's own digest on. -/
def bytesWrites (slot : Word) (bs : Bytes) : List StorageWrite :=
  if bs.length < 32 then
    [⟨slot, wordOfPrefix bs ||| BitVec.ofNat 256 (2 * bs.length)⟩]
  else
    let base : Word := keccak256 slot.toBytes
    ⟨slot, BitVec.ofNat 256 (2 * bs.length + 1)⟩ ::
      (Bytes.chunks 32 bs).zipIdx.map fun (chunk, i) =>
        ⟨base + BitVec.ofNat 256 i, wordOfPrefix chunk⟩

/-- The slot of a request's response, in the mapping that stands at `cacheSlot`. -/
def responseSlot (cacheSlot : UInt64) (requestId : Hash) : Word :=
  mappingSlot requestId (Word.ofUInt64 cacheSlot)

/-- The writes that put a payload into the cache. -/
def cacheWrites (cacheSlot : UInt64) (requestId : Hash) (payload : Bytes) : List StorageWrite :=
  bytesWrites (responseSlot cacheSlot requestId) payload

end ComputeRelay
