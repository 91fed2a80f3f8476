import ComputeRelay.Proofs.Bindings
import ComputeRelay.Proofs.SimulatedCache

/-! The next nonce of an account, as the entry point keeps it. The contract reads a sequence number
at a place that is spelled out byte by byte here, and the write for a nonce makes it read the low
bits of that nonce under its high bits. Two writes go to one place only for the same account and
key, collisions of the digest apart. -/

namespace ComputeRelay

/-- An account in thirty-two bytes, and the slot of the outer mapping. -/
def accountBytes (sender : Address) : Bytes :=
  List.replicate 12 0 ++ sender.toBytes ++ (List.replicate 31 0 ++ [1])

/-- A key in thirty-two bytes, and the slot of the account's own mapping. -/
def keyBytes (sender : Address) (key : Word) : Bytes :=
  key.toBytes ++ Word.toBytes (keccak256 (accountBytes sender))

/-- The sequence number that the entry point holds for an account and a key. -/
def readSequence (contents : Contents) (sender : Address) (key : Word) : Word :=
  contents (keccak256 (keyBytes sender key))

section

variable {sender sender' : Address} {key key' : Word}

theorem sequenceSlot_eq (sender : Address) (key : Word) :
    sequenceSlot sender key = keccak256 (keyBytes sender key) := by
  have hone : Word.toBytes 1 = List.replicate 31 0 ++ [1] := by decide
  have hinner : mappingSlot sender.toWord 1 = keccak256 (accountBytes sender) := by
    rw [mappingSlot, Address.toBytes_toWord, hone, accountBytes]
  rw [sequenceSlot, hinner, mappingSlot, keyBytes]

theorem accountBytes_inj : accountBytes sender = accountBytes sender' ↔ sender = sender' := by
  rw [accountBytes, accountBytes, ← Address.toBytes_toWord, ← Address.toBytes_toWord,
    List.append_left_inj, Word.toBytes_inj, Address.toWord_inj]

theorem keyBytes_inj : keyBytes sender key = keyBytes sender' key' ↔
    key = key' ∧ keccak256 (accountBytes sender) = keccak256 (accountBytes sender') := by
  have hlength : key.toBytes.length = key'.toBytes.length := by
    rw [Word.length_toBytes, Word.length_toBytes]
  constructor
  · intro h
    obtain ⟨hkey, haccount⟩ := List.append_inj h hlength
    exact ⟨Word.toBytes_inj.mp hkey, Word.toBytes_inj.mp haccount⟩
  · rintro ⟨rfl, haccount⟩
    rw [keyBytes, keyBytes, haccount]

theorem sequenceSlot_eq_iff : sequenceSlot sender key = sequenceSlot sender' key' ↔
    (key = key' ∧ (sender = sender' ∨ Collide [accountBytes sender] [accountBytes sender'])) ∨
      Collide [keyBytes sender key] [keyBytes sender' key'] := by
  rw [sequenceSlot_eq, sequenceSlot_eq, digest_eq_iff, keyBytes_inj, digest_eq_iff,
    accountBytes_inj]

end

/-- The key and the sequence number of a nonce make it up again. -/
theorem nonce_split (nonce : Word) :
    (nonce >>> 64).toNat * 2 ^ 64 + ((nonce.setWidth 64).setWidth 256).toNat = nonce.toNat := by
  have hlow : ((nonce.setWidth 64).setWidth 256).toNat = nonce.toNat % 2 ^ 64 := by
    rw [BitVec.toNat_setWidth, BitVec.toNat_setWidth]
    exact Nat.mod_eq_of_lt (by omega)
  rw [hlow, BitVec.toNat_ushiftRight, Nat.shiftRight_eq_div_pow, Nat.mul_comm, Nat.div_add_mod]

theorem readSequence_written (sender : Address) (nonce : Word) (previous : Contents) :
    readSequence (previous.writeAll [nonceWrite sender nonce]) sender (nonce >>> 64) =
      (nonce.setWidth 64).setWidth 256 := by
  have hslot : (nonceWrite sender nonce).slot = keccak256 (keyBytes sender (nonce >>> 64)) :=
    sequenceSlot_eq _ _
  have hheld : (previous.writeAll [nonceWrite sender nonce]).Holds [nonceWrite sender nonce] :=
    Contents.holds_writeAll previous (List.nodup_singleton _)
  rw [readSequence, ← hslot]
  exact hheld _ List.mem_cons_self

namespace StateOverride

variable {s : StateOverride} {account other : Address} {previous : Contents}

theorem contents_modify_of_ne (h : other ≠ account) (f : AccountOverride → AccountOverride) :
    (s.modify other f).contents account previous = s.contents account previous := by
  funext slot
  rw [contents, modify, Table.get?_insert, if_neg h, contents]

theorem contents_setBalance (s : StateOverride) (other : Address) (balance : Word) :
    (s.setBalance other balance).contents account previous = s.contents account previous := by
  by_cases h : other = account
  · subst other
    funext slot
    rw [contents, setBalance, modify, Table.get?_insert, if_pos rfl, Option.bind_some, contents]
    cases Table.get? s account with
    | none => rfl
    | some a => rfl
  · exact contents_modify_of_ne h _

theorem contents_storeAll_of_ne (h : other ≠ account) (writes : List StorageWrite) :
    (writes.foldl (fun s w => s.store other w) s).contents account previous =
      s.contents account previous := by
  induction writes generalizing s with
  | nil => rfl
  | cons w writes ih => rw [List.foldl_cons, ih, store, contents_modify_of_ne h]

end StateOverride

/-- In the simulation of a cache write the entry point's storage differs from the ledger's in the
write for its nonce only: the responses of the operations in front go to the helper. -/
theorem contents_entryPoint {config : Config} {op : Operation} (behind : List Operation)
    (previous : Contents) (hsystem : op.sender = config.systemAccount)
    (hapart : config.helper ≠ config.entryPoint) :
    (simulationState config behind op).contents config.entryPoint previous =
      previous.writeAll [nonceWrite op.sender op.nonce] := by
  rw [simulationState, if_pos hsystem]
  generalize hs : StateOverride.store _ config.entryPoint _ = s
  have hstart : s.contents config.entryPoint previous =
      previous.writeAll [nonceWrite op.sender op.nonce] := by
    rw [← hs, StateOverride.contents_store, StateOverride.contents_setBalance]
    rfl
  clear hs
  induction behind generalizing s with
  | nil => exact hstart
  | cons first behind ih =>
    rw [List.foldl_cons]
    apply ih
    cases CacheWrite.decode? first.callData config.helper with
    | none => exact hstart
    | some written =>
      obtain ⟨requestId, payload⟩ := written
      exact (StateOverride.contents_storeAll_of_ne hapart _).trans hstart

/-- The entry point reads back the nonce that is written for an account: the sequence number stands
where the contract looks under the nonce's high bits, it is below 2^64, and key and sequence number
make up the nonce. No other slot changes. In a simulation of a cache write behind any others this
is what the entry point holds. Two such writes go to one slot exactly when account and key agree,
or when keys agree and the accounts' strings collide, or when the strings of the slots collide. -/
theorem sequence_reads_back :
    (∀ (sender : Address) (nonce : Word) (previous : Contents),
      let written := previous.writeAll [nonceWrite sender nonce]
      let key := nonce >>> 64
      (readSequence written sender key).toNat < 2 ^ 64 ∧
      key.toNat * 2 ^ 64 + (readSequence written sender key).toNat = nonce.toNat ∧
      ∀ slot, slot ≠ keccak256 (keyBytes sender key) → written slot = previous slot) ∧
    (∀ (config : Config) (behind : List Operation) (op : Operation) (previous : Contents),
      op.sender = config.systemAccount → config.helper ≠ config.entryPoint →
      (simulationState config behind op).contents config.entryPoint previous =
        previous.writeAll [nonceWrite op.sender op.nonce]) ∧
    ∀ (sender sender' : Address) (nonce nonce' : Word),
      let key := nonce >>> 64
      let key' := nonce' >>> 64
      (nonceWrite sender nonce).slot = (nonceWrite sender' nonce').slot ↔
        (sender = sender' ∧ key = key') ∨
        (key = key' ∧ Collide [accountBytes sender] [accountBytes sender']) ∨
        Collide [keyBytes sender key] [keyBytes sender' key'] := by
  refine ⟨?_, fun _ behind _ previous => contents_entryPoint behind previous, ?_⟩
  · intro sender nonce previous written key
    have hread : readSequence written sender key = (nonce.setWidth 64).setWidth 256 :=
      readSequence_written sender nonce previous
    rw [hread]
    refine ⟨?_, nonce_split nonce, ?_⟩
    · rw [BitVec.toNat_setWidth_of_le (by decide)]
      exact (nonce.setWidth 64).isLt
    · intro slot hslot
      apply Contents.writeAll_of_not_mem
      rw [List.map_singleton, List.mem_singleton]
      exact fun h => hslot (h.trans (sequenceSlot_eq _ _))
  · intro sender sender' nonce nonce' key key'
    have hslots : (nonceWrite sender nonce).slot = (nonceWrite sender' nonce').slot ↔
        sequenceSlot sender key = sequenceSlot sender' key' := Iff.rfl
    rw [hslots, sequenceSlot_eq_iff, and_or_left,
      and_comm (a := key = key') (b := sender = sender'), or_assoc]

namespace Sample

/-- A nonce past 2^64, with the third key and the ninth sequence number. -/
def lateNonce : Word := 0x30000000000000009

def lateWrite : Operation := { op 0xa0 with nonce := lateNonce }

theorem ne_lateSlot : (0 : Word) ≠ keccak256 (keyBytes 0xa0 (lateNonce >>> 64)) := by
  simp only [keyBytes, keccak256_eq]
  decide +kernel

/-- Behind three cache writes, over a storage that holds nothing but ones. -/
theorem late_reads_back :
    let previous : Contents := fun _ => BitVec.allOnes 256
    let simulated := (simulationState config cacheOps lateWrite).contents config.entryPoint previous
    3 * 2 ^ 64 + (readSequence simulated 0xa0 3).toNat = lateNonce.toNat ∧
      simulated 0 = BitVec.allOnes 256 ∧
      (nonceWrite 0xa0 lateNonce).slot = (nonceWrite 0xa0 (lateNonce + 1)).slot := by
  intro previous simulated
  obtain ⟨hwritten, hsimulated, hslots⟩ := sequence_reads_back
  have hsame : simulated = previous.writeAll [nonceWrite 0xa0 lateNonce] :=
    hsimulated config cacheOps lateWrite previous (by decide) (by decide)
  obtain ⟨-, hnonce, hother⟩ := hwritten 0xa0 lateNonce previous
  rw [hsame]
  exact ⟨hnonce, hother 0 ne_lateSlot, (hslots _ _ _ _).mpr (.inl (by decide))⟩

end Sample

end ComputeRelay
