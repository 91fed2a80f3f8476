import ComputeRelay.Node.Override
import ComputeRelay.Proofs.Answerable
import ComputeRelay.Proofs.StoredBytes
import ComputeRelay.Proofs.Tables

/-! The cache that a simulation sees. The writes that the operations in front of it make replace
slots of the helper; with them a response is read where the helper looks for it, over anything that
the chain holds there. -/

namespace ComputeRelay

namespace StateOverride

variable {s : StateOverride} {account : Address} {previous : Contents}

/-- What an account's storage holds when the changes are made to what it held before. -/
def contents (s : StateOverride) (account : Address) (previous : Contents) : Contents := fun slot =>
  (((Table.get? s account).bind fun a => Table.get? a.storage slot)).getD (previous slot)

theorem contents_store (w : StorageWrite) :
    (s.store account w).contents account previous =
      Function.update (s.contents account previous) w.slot w.value := by
  funext slot
  rw [contents, store, modify, Table.get?_insert, if_pos rfl, Option.bind_some, Table.get?_insert]
  by_cases hslot : w.slot = slot
  · rw [if_pos hslot, Option.getD_some, ← hslot, Function.update_self]
  · rw [if_neg hslot, Function.update_of_ne (Ne.symm hslot), contents]
    cases Table.get? s account with
    | none => rfl
    | some a => rfl

theorem contents_storeAll (writes : List StorageWrite) :
    (writes.foldl (fun s w => s.store account w) s).contents account previous =
      (s.contents account previous).writeAll writes := by
  induction writes generalizing s with
  | nil => rfl
  | cons w writes ih =>
    rw [List.foldl_cons, ih, contents_store]
    rfl

end StateOverride

/-- The requests and payloads that operations write into the cache, in their order. -/
def cachedBy (config : Config) (ops : List Operation) : List (Hash × Bytes) :=
  ops.filterMap fun op => CacheWrite.decode? op.callData config.helper

/-- The writes for payloads, one after another. -/
def writesFor (cacheSlot : UInt64) (written : List (Hash × Bytes)) : List StorageWrite :=
  written.flatMap fun e => cacheWrites cacheSlot e.1 e.2

/-- The helper's storage in a simulation, up to the writes of the cache. -/
def beforeCache (config : Config) (op : Operation) (previous : Contents) : Contents :=
  (simulationState config [] op).contents config.helper previous

theorem contents_simulationState (config : Config) (behind : List Operation) (op : Operation)
    (previous : Contents) :
    (simulationState config behind op).contents config.helper previous =
      (beforeCache config op previous).writeAll
        (writesFor config.responseCacheSlot (cachedBy config behind)) := by
  rw [beforeCache]
  simp only [simulationState, List.foldl_nil]
  generalize (if op.sender = config.systemAccount then _ else _ : StateOverride) = s
  induction behind generalizing s with
  | nil => rfl
  | cons first behind ih =>
    rw [List.foldl_cons, ih, cachedBy, cachedBy, List.filterMap_cons]
    cases hdecode : CacheWrite.decode? first.callData config.helper with
    | none => rfl
    | some e =>
      rw [writesFor, writesFor, List.flatMap_cons, Contents.writeAll_append,
        StateOverride.contents_storeAll]

/-- The payload that is written last for a request. -/
def lastWritten (written : List (Hash × Bytes)) (requestId : Hash) : Option Bytes :=
  Table.get? written.reverse requestId

theorem lastWritten_concat (written : List (Hash × Bytes)) (e : Hash × Bytes) (requestId : Hash) :
    lastWritten (written ++ [e]) requestId =
      if e.1 = requestId then some e.2 else lastWritten written requestId := by
  rw [lastWritten, List.reverse_append]
  rfl

/-- The slots that a response takes: its own, and the data slots. -/
def responseSlots (cacheSlot : UInt64) (requestId : Hash) (payload : Bytes) : List Word :=
  responseSlot cacheSlot requestId :: dataSlots (responseSlot cacheSlot requestId) payload

theorem map_slot_cacheWrites (cacheSlot : UInt64) (requestId : Hash) (payload : Bytes) :
    (cacheWrites cacheSlot requestId payload).map (·.slot) =
      responseSlots cacheSlot requestId payload :=
  map_slot_bytesWrites _ payload

/-- A payload that reads back from its own writes: its length fits into the word for it, as that of
every byte string in a memory does, and its slot is not one of its data slots. -/
structure Storable (cacheSlot : UInt64) (requestId : Hash) (payload : Bytes) : Prop where
  fits : payload.length < 2 ^ 255
  apart : responseSlot cacheSlot requestId ∉ dataSlots (responseSlot cacheSlot requestId) payload

/-- Payloads of different requests do not share a slot. -/
def Separate (cacheSlot : UInt64) (written : List (Hash × Bytes)) : Prop :=
  ∀ e ∈ written, ∀ e' ∈ written, e.1 ≠ e'.1 →
    List.Disjoint (responseSlots cacheSlot e.1 e.2) (responseSlots cacheSlot e'.1 e'.2)

theorem Separate.init {cacheSlot : UInt64} {written : List (Hash × Bytes)} {e : Hash × Bytes}
    (h : Separate cacheSlot (written ++ [e])) : Separate cacheSlot written :=
  fun a ha b hb => h a (List.mem_append_left _ ha) b (List.mem_append_left _ hb)

theorem readBytes_cacheWrites {cacheSlot : UInt64} {requestId : Hash} {payload : Bytes}
    (h : Storable cacheSlot requestId payload) (previous : Contents) :
    readBytes (previous.writeAll (cacheWrites cacheSlot requestId payload))
      (responseSlot cacheSlot requestId) = payload :=
  readBytes_of_holds h.fits (holds_bytesWrites previous h.fits h.apart)

/-- After the writes for payloads, those for the last payload of each request are still there. The
last write of all keeps them: it is for another request, or it is the one in question. -/
theorem holds_lastWritten {cacheSlot : UInt64} {written : List (Hash × Bytes)}
    (h : Separate cacheSlot written) (previous : Contents) {e : Hash × Bytes} (he : e ∈ written) :
    ∃ payload, lastWritten written e.1 = some payload ∧ (e.1, payload) ∈ written ∧
      (Storable cacheSlot e.1 payload →
        (previous.writeAll (writesFor cacheSlot written)).Holds
          (cacheWrites cacheSlot e.1 payload)) := by
  induction written using List.reverseRecOn with
  | nil => exact absurd he List.not_mem_nil
  | append_singleton written last ih =>
    have hadded : last ∈ written ++ [last] := List.mem_append_right _ List.mem_cons_self
    have hwrites : previous.writeAll (writesFor cacheSlot (written ++ [last])) =
        (previous.writeAll (writesFor cacheSlot written)).writeAll
          (cacheWrites cacheSlot last.1 last.2) := by
      rw [writesFor, List.flatMap_append, Contents.writeAll_append, List.flatMap_singleton]
      rfl
    rw [hwrites, lastWritten_concat]
    by_cases hsame : last.1 = e.1
    · rw [if_pos hsame, ← hsame]
      exact ⟨last.2, rfl, hadded, fun hlast => holds_bytesWrites _ hlast.fits hlast.apart⟩
    · have hearlier : e ∈ written := by
        rcases List.mem_append.mp he with hmem | hmem
        · exact hmem
        · exact absurd (congrArg Prod.fst (List.mem_singleton.mp hmem)).symm hsame
      obtain ⟨payload, hpayload, hmem, hholds⟩ := ih h.init hearlier
      rw [if_neg hsame]
      refine ⟨payload, hpayload, List.mem_append_left _ hmem, ?_⟩
      intro hstorable
      refine (hholds hstorable).writeAll ?_
      rw [map_slot_cacheWrites, map_slot_cacheWrites]
      exact h _ (List.mem_append_left _ hmem) _ hadded (Ne.symm hsame)

/-- A response is read back from the cache. The writes that store a payload make its request's slot
read as the payload, for any length and over any contents; and in a simulation each request for
which the operations in front write a payload reads as the last one, if different requests share no
slot. -/
theorem cached_reads_back :
    (∀ cacheSlot requestId payload (previous : Contents), Storable cacheSlot requestId payload →
      readBytes (previous.writeAll (cacheWrites cacheSlot requestId payload))
        (mappingSlot requestId (Word.ofUInt64 cacheSlot)) = payload) ∧
    ∀ config behind op previous,
      Separate config.responseCacheSlot (cachedBy config behind) →
        ∀ e ∈ cachedBy config behind,
          ∃ payload, lastWritten (cachedBy config behind) e.1 = some payload ∧
            (Storable config.responseCacheSlot e.1 payload →
              readBytes ((simulationState config behind op).contents config.helper previous)
                (mappingSlot e.1 (Word.ofUInt64 config.responseCacheSlot)) = payload) := by
  refine ⟨fun _ _ _ previous h => readBytes_cacheWrites h previous, ?_⟩
  intro config behind op previous h e he
  obtain ⟨payload, hpayload, -, hholds⟩ :=
    holds_lastWritten h (beforeCache config op previous) he
  refine ⟨payload, hpayload, ?_⟩
  intro hstorable
  rw [contents_simulationState]
  exact readBytes_of_holds hstorable.fits (hholds hstorable)

namespace Sample

/-- Takes two data slots. -/
def longer : Bytes := List.replicate 33 0x5a

/-- Takes one data slot. -/
def shorter : Bytes := List.replicate 32 0xa5

/-- The first request's response is written anew after the second's. -/
def cached : List (Hash × Bytes) :=
  [(firstKey, longer), (secondKey, [0x61, 0x62, 0x63]), (firstKey, shorter)]

def cacheOps : List Operation :=
  cached.map fun e =>
    { op 0xa0 with callData := CacheWrite.encode config.helper e.1 e.2 signature }

theorem cachedBy_cacheOps : cachedBy config cacheOps = cached := by decide +kernel

theorem responseSlot_firstKey : responseSlot 1 firstKey =
    0x9d97b97fbe0985645ecb1cb494b323671dc105cc6ecb2462fb1944bc4a650d15 := by
  simp only [responseSlot, mappingSlot, keccak256_eq]
  decide +kernel

theorem dataSlot_firstKey :
    dataSlot 0x9d97b97fbe0985645ecb1cb494b323671dc105cc6ecb2462fb1944bc4a650d15 = fun i =>
      0x5adc63ebaa0b1fc93f5d04d26788a6f484666e42aff26ad50193e3babd3f4178 + BitVec.ofNat 256 i := by
  funext i
  rw [dataSlot, BitVec.add_left_inj, keccak256_eq]
  decide +kernel

theorem responseSlots_longer : responseSlots 1 firstKey longer =
    [0x9d97b97fbe0985645ecb1cb494b323671dc105cc6ecb2462fb1944bc4a650d15,
      0x5adc63ebaa0b1fc93f5d04d26788a6f484666e42aff26ad50193e3babd3f4178,
      0x5adc63ebaa0b1fc93f5d04d26788a6f484666e42aff26ad50193e3babd3f4179] := by
  rw [responseSlots, responseSlot_firstKey, dataSlots, dataSlot_firstKey]
  decide

theorem responseSlots_shorter : responseSlots 1 firstKey shorter =
    [0x9d97b97fbe0985645ecb1cb494b323671dc105cc6ecb2462fb1944bc4a650d15,
      0x5adc63ebaa0b1fc93f5d04d26788a6f484666e42aff26ad50193e3babd3f4178] := by
  rw [responseSlots, responseSlot_firstKey, dataSlots, dataSlot_firstKey]
  decide

theorem responseSlots_secondKey : responseSlots 1 secondKey [0x61, 0x62, 0x63] =
    [0x6a637e87a793d9a7878da0249a1896c2a1c3cf544a7f1395d497682bbbde7618] := by
  simp only [responseSlots, responseSlot, mappingSlot, dataSlots, keccak256_eq]
  decide +kernel

theorem storable_of_slots {cacheSlot : UInt64} {requestId : Hash} {payload : Bytes}
    {slots : List Word} (hslots : responseSlots cacheSlot requestId payload = slots)
    (hnodup : slots.Nodup) (hfits : payload.length < 2 ^ 255) :
    Storable cacheSlot requestId payload where
  fits := hfits
  apart := by
    rw [← hslots, responseSlots, List.nodup_cons] at hnodup
    exact hnodup.1

theorem separate_cached : Separate 1 cached := by
  simp [Separate, cached, responseSlots_longer, responseSlots_shorter, responseSlots_secondKey]

/-- Over a storage that holds nothing but ones. -/
theorem rewritten_reads_back :
    let previous : Contents := fun _ => BitVec.allOnes 256
    readBytes (previous.writeAll (cacheWrites 1 firstKey longer))
        (mappingSlot firstKey (Word.ofUInt64 1)) = longer ∧
      readBytes ((simulationState config cacheOps (op 0xa0)).contents config.helper previous)
        (mappingSlot firstKey (Word.ofUInt64 config.responseCacheSlot)) = shorter := by
  intro previous
  have hseparate : Separate config.responseCacheSlot (cachedBy config cacheOps) := by
    rw [cachedBy_cacheOps]
    exact separate_cached
  have hmem : (firstKey, longer) ∈ cachedBy config cacheOps := by
    rw [cachedBy_cacheOps]
    exact List.mem_cons_self
  have hlast : lastWritten (cachedBy config cacheOps) firstKey = some shorter := by
    rw [cachedBy_cacheOps]
    decide
  obtain ⟨hwrites, hsimulation⟩ := cached_reads_back
  obtain ⟨payload, hpayload, hread⟩ :=
    hsimulation config cacheOps (op 0xa0) previous hseparate _ hmem
  obtain rfl := Option.some.inj (hlast.symm.trans hpayload)
  exact ⟨hwrites 1 _ _ _ (storable_of_slots responseSlots_longer (by decide) (by decide)),
    hread (storable_of_slots responseSlots_shorter (by decide) (by decide))⟩

end Sample

end ComputeRelay
