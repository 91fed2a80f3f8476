import ComputeRelay.Storage
import ComputeRelay.Word.Lemmas

/-! Byte strings in the storage of a contract. What the layout says about a slot is a reader of its
own, which knows nothing of the writes; the writes for a byte string make it read that string,
whatever the slots held before. -/

namespace ComputeRelay

abbrev Contents := Word → Word

namespace Contents

variable {contents : Contents} {writes : List StorageWrite}

/-- The contents after writes, one after another. -/
def writeAll (contents : Contents) (writes : List StorageWrite) : Contents :=
  writes.foldl (fun contents w => Function.update contents w.slot w.value) contents

theorem writeAll_append (contents : Contents) (writes later : List StorageWrite) :
    contents.writeAll (writes ++ later) = (contents.writeAll writes).writeAll later :=
  List.foldl_append

theorem writeAll_of_not_mem {slot : Word} (h : slot ∉ writes.map (·.slot)) :
    contents.writeAll writes slot = contents slot := by
  induction writes generalizing contents with
  | nil => rfl
  | cons w writes ih =>
    rw [List.map_cons, List.mem_cons, not_or] at h
    obtain ⟨hne, hrest⟩ := h
    calc contents.writeAll (w :: writes) slot
        = writeAll (Function.update contents w.slot w.value) writes slot := rfl
      _ = Function.update contents w.slot w.value slot := ih hrest
      _ = contents slot := Function.update_of_ne hne _ _

/-- Each of the writes is still there. -/
def Holds (contents : Contents) (writes : List StorageWrite) : Prop :=
  ∀ w ∈ writes, contents w.slot = w.value

theorem holds_writeAll (contents : Contents) (h : (writes.map (·.slot)).Nodup) :
    (contents.writeAll writes).Holds writes := by
  induction writes generalizing contents with
  | nil => exact List.forall_mem_nil _
  | cons w writes ih =>
    rw [List.map_cons, List.nodup_cons] at h
    obtain ⟨hnew, hrest⟩ := h
    refine List.forall_mem_cons.mpr ⟨?_, ih _ hrest⟩
    calc contents.writeAll (w :: writes) w.slot
        = writeAll (Function.update contents w.slot w.value) writes w.slot := rfl
      _ = Function.update contents w.slot w.value w.slot := writeAll_of_not_mem hnew
      _ = w.value := Function.update_self _ _ _

theorem Holds.writeAll {later : List StorageWrite} (h : contents.Holds writes)
    (hapart : List.Disjoint (writes.map (·.slot)) (later.map (·.slot))) :
    (contents.writeAll later).Holds writes := by
  intro w hw
  rw [writeAll_of_not_mem (hapart (List.mem_map_of_mem hw))]
  exact h w hw

end Contents

/-- How many words a byte string takes. -/
def wordCount (size : Nat) : Nat := (size + 31) / 32

/-- The slots in which the bytes stand that do not fit beside their length; behind the last slot
comes the first. -/
def dataSlot (slot : Word) (i : Nat) : Word := keccak256 slot.toBytes + BitVec.ofNat 256 i

/-- The first bytes of the data slots. -/
def readData (contents : Contents) (slot : Word) (size : Nat) : Bytes :=
  ((List.range (wordCount size)).flatMap fun i => (contents (dataSlot slot i)).toBytes).take size

/-- The byte string at a slot. An even word holds the string itself, and in its last byte twice the
length. An odd word holds twice the length and one more, and the bytes stand in the data slots. -/
def readBytes (contents : Contents) (slot : Word) : Bytes :=
  let head := contents slot
  if head.toNat % 2 = 0 then head.toBytes.take (head.toNat % 256 / 2)
  else readData contents slot ((head.toNat - 1) / 2)

def dataSlots (slot : Word) (bs : Bytes) : List Word :=
  if bs.length < 32 then [] else (List.range (wordCount bs.length)).map (dataSlot slot)

theorem dataSlot_inj {slot : Word} {i j : Nat} (hi : i < 2 ^ 256) (hj : j < 2 ^ 256)
    (h : dataSlot slot i = dataSlot slot j) : i = j := by
  have hoffset : BitVec.ofNat 256 i = BitVec.ofNat 256 j := BitVec.add_right_inj _ |>.mp h
  have hnat := congrArg BitVec.toNat hoffset
  rwa [BitVec.toNat_ofNat, BitVec.toNat_ofNat, Nat.mod_eq_of_lt hi, Nat.mod_eq_of_lt hj] at hnat

theorem nodup_dataSlots (slot : Word) {bs : Bytes} (hsize : bs.length < 2 ^ 255) :
    (dataSlots slot bs).Nodup := by
  unfold dataSlots
  split
  · exact List.nodup_nil
  · refine List.Nodup.map_on ?_ List.nodup_range
    intro i hi j hj heq
    rw [List.mem_range, wordCount] at hi hj
    exact dataSlot_inj (by omega) (by omega) heq

namespace Bytes

theorem length_padRight {width : Nat} {bs : Bytes} (h : bs.length ≤ width) :
    (padRight width bs).length = width := by
  rw [padRight, List.length_append, List.length_replicate]
  omega

theorem length_of_mem_chunks {bs chunk : Bytes} (h : chunk ∈ chunks 32 bs) : chunk.length ≤ 32 := by
  induction bs using chunks.induct 32 with
  | case1 bs hempty =>
    rw [chunks, dif_pos hempty] at h
    exact absurd h List.not_mem_nil
  | case2 bs hne ih =>
    rw [chunks, dif_neg hne] at h
    rcases List.mem_cons.mp h with rfl | hrest
    · exact List.length_take_le 32 bs
    · exact ih hrest

theorem length_chunks (bs : Bytes) : (chunks 32 bs).length = wordCount bs.length := by
  induction bs using chunks.induct 32 with
  | case1 bs hempty =>
    obtain rfl := hempty.resolve_right (by decide)
    rw [chunks, dif_pos hempty]
    rfl
  | case2 bs hne ih =>
    have hpos : 0 < bs.length := List.length_pos_iff.mpr fun h => hne (.inl h)
    rw [chunks, dif_neg hne, List.length_cons, ih, List.length_drop, wordCount, wordCount]
    omega

/-- The pieces, each filled up, are the string filled up. -/
theorem flatMap_padRight_chunks (bs : Bytes) :
    (chunks 32 bs).flatMap (padRight 32) = padRight (32 * wordCount bs.length) bs := by
  induction bs using chunks.induct 32 with
  | case1 bs hempty =>
    obtain rfl := hempty.resolve_right (by decide)
    rw [chunks, dif_pos hempty]
    rfl
  | case2 bs hne ih =>
    have hpos : 0 < bs.length := List.length_pos_iff.mpr fun h => hne (.inl h)
    rw [chunks, dif_neg hne, List.flatMap_cons, ih]
    simp only [padRight, wordCount, List.length_take, List.length_drop]
    by_cases hlast : bs.length ≤ 32
    · have hdrop : bs.drop 32 = [] := List.drop_eq_nil_of_le hlast
      have htake : bs.take 32 = bs := List.take_of_length_le hlast
      have hcount : (bs.length + 31) / 32 = 1 := by omega
      rw [hdrop, htake, hcount, Nat.sub_eq_zero_of_le hlast, Nat.min_eq_right hlast]
      simp
    · have hfull : 32 - min 32 bs.length = 0 := by omega
      have hcount : 32 * ((bs.length - 32 + 31) / 32) - (bs.length - 32) =
          32 * ((bs.length + 31) / 32) - bs.length := by omega
      rw [hfull, hcount, List.replicate_zero, List.append_nil, ← List.append_assoc,
        List.take_append_drop]

end Bytes

theorem toBytes_wordOfPrefix {bs : Bytes} (h : bs.length ≤ 32) :
    (wordOfPrefix bs).toBytes = Bytes.padRight 32 bs :=
  Word.toBytes_ofBytes (Bytes.length_padRight h)

section

variable {contents : Contents} {slot : Word} {bs : Bytes}

theorem toNat_sizeByte (h : bs.length < 32) :
    (UInt8.ofNat (2 * bs.length)).toNat = 2 * bs.length := by
  rw [UInt8.toNat_ofNat', Nat.mod_eq_of_lt (by omega)]

/-- A short string and its length do not meet in their word. -/
theorem shortWord_eq (h : bs.length < 32) :
    wordOfPrefix bs ||| BitVec.ofNat 256 (2 * bs.length) =
      Word.ofBytes (Bytes.padRight 31 bs ++ [UInt8.ofNat (2 * bs.length)]) := by
  have hpad : Bytes.padRight 32 bs = Bytes.padRight 31 bs ++ [0] := by
    have hzeros : 32 - bs.length = 31 - bs.length + 1 := by omega
    rw [Bytes.padRight, Bytes.padRight, hzeros, List.replicate_succ', List.append_assoc]
  have hlength : (Bytes.padRight 31 bs).length = 31 := Bytes.length_padRight (by omega)
  apply BitVec.eq_of_toNat_eq
  rw [BitVec.toNat_or, wordOfPrefix, hpad, Word.toNat_ofBytes_concat hlength,
    Word.toNat_ofBytes_concat hlength, UInt8.toNat_zero, Nat.add_zero, BitVec.toNat_ofNat,
    toNat_sizeByte h,
    Nat.mod_eq_of_lt (by omega : 2 * bs.length < 2 ^ 256), ← Nat.shiftLeft_eq]
  exact (Nat.shiftLeft_add_eq_or_of_lt (by omega : 2 * bs.length < 2 ^ 8) _).symm

theorem readBytes_short (h : bs.length < 32)
    (hhead : contents slot = wordOfPrefix bs ||| BitVec.ofNat 256 (2 * bs.length)) :
    readBytes contents slot = bs := by
  have hlength : (Bytes.padRight 31 bs).length = 31 := Bytes.length_padRight (by omega)
  rw [shortWord_eq h] at hhead
  have hbytes : (contents slot).toBytes =
      Bytes.padRight 31 bs ++ [UInt8.ofNat (2 * bs.length)] := by
    rw [hhead, Word.toBytes_ofBytes]
    rw [List.length_append, hlength, List.length_singleton]
  have hnat : (contents slot).toNat = (Bytes.padRight 31 bs).toNat * 2 ^ 8 + 2 * bs.length := by
    rw [hhead, Word.toNat_ofBytes_concat hlength, toNat_sizeByte h]
  have heven : (contents slot).toNat % 2 = 0 := by omega
  have hsize : (contents slot).toNat % 256 / 2 = bs.length := by omega
  rw [readBytes, if_pos heven, hsize, hbytes, Bytes.padRight, List.append_assoc, List.take_left]

theorem readBytes_long (hlt : bs.length < 2 ^ 255)
    (hhead : contents slot = BitVec.ofNat 256 (2 * bs.length + 1))
    (hdata : ∀ i (hi : i < (Bytes.chunks 32 bs).length),
      contents (dataSlot slot i) = wordOfPrefix (Bytes.chunks 32 bs)[i]) :
    readBytes contents slot = bs := by
  have hnat : (contents slot).toNat = 2 * bs.length + 1 := by
    rw [hhead, BitVec.toNat_ofNat, Nat.mod_eq_of_lt (by omega)]
  have hodd : ¬ (contents slot).toNat % 2 = 0 := by omega
  have hsize : ((contents slot).toNat - 1) / 2 = bs.length := by omega
  have hwords : (List.range (wordCount bs.length)).map (fun i => contents (dataSlot slot i)) =
      (Bytes.chunks 32 bs).map wordOfPrefix := by
    refine List.ext_getElem (by simp [Bytes.length_chunks]) ?_
    intro i hi hi'
    rw [List.length_map] at hi'
    simpa using hdata i hi'
  have hbytes : (List.range (wordCount bs.length)).flatMap
      (fun i => (contents (dataSlot slot i)).toBytes) =
        (Bytes.chunks 32 bs).flatMap (Bytes.padRight 32) := by
    calc (List.range (wordCount bs.length)).flatMap (fun i => (contents (dataSlot slot i)).toBytes)
        = ((List.range (wordCount bs.length)).map fun i => contents (dataSlot slot i)).flatMap
            Word.toBytes := (List.flatMap_map ..).symm
      _ = (Bytes.chunks 32 bs).flatMap fun chunk => (wordOfPrefix chunk).toBytes := by
        rw [hwords, List.flatMap_map]
      _ = (Bytes.chunks 32 bs).flatMap (Bytes.padRight 32) :=
        List.flatMap_congr fun chunk hchunk =>
          toBytes_wordOfPrefix (Bytes.length_of_mem_chunks hchunk)
  rw [readBytes, if_neg hodd, hsize, readData, hbytes, Bytes.flatMap_padRight_chunks,
    Bytes.padRight, List.take_left]

theorem bytesWrites_short (h : bs.length < 32) : bytesWrites slot bs =
    [⟨slot, wordOfPrefix bs ||| BitVec.ofNat 256 (2 * bs.length)⟩] :=
  if_pos h

theorem bytesWrites_long (h : ¬ bs.length < 32) : bytesWrites slot bs =
    ⟨slot, BitVec.ofNat 256 (2 * bs.length + 1)⟩ ::
      (Bytes.chunks 32 bs).zipIdx.map fun (chunk, i) => ⟨dataSlot slot i, wordOfPrefix chunk⟩ :=
  if_neg h

/-- The writes go to the slot and to the data slots. -/
theorem map_slot_bytesWrites (slot : Word) (bs : Bytes) :
    (bytesWrites slot bs).map (·.slot) = slot :: dataSlots slot bs := by
  by_cases h : bs.length < 32
  · rw [bytesWrites_short h, dataSlots, if_pos h]
    rfl
  · rw [bytesWrites_long h, dataSlots, if_neg h, List.map_cons, List.map_map,
      ← Bytes.length_chunks, List.range_eq_range', ← List.zipIdx_map_snd, List.map_map]
    rfl

theorem readBytes_of_holds (hlt : bs.length < 2 ^ 255)
    (h : contents.Holds (bytesWrites slot bs)) : readBytes contents slot = bs := by
  by_cases hshort : bs.length < 32
  · rw [bytesWrites_short hshort] at h
    exact readBytes_short hshort (h _ List.mem_cons_self)
  · rw [bytesWrites_long hshort] at h
    obtain ⟨hhead, hdata⟩ := List.forall_mem_cons.mp h
    refine readBytes_long hlt hhead ?_
    intro i hi
    have hmem : ((Bytes.chunks 32 bs)[i], i) ∈ (Bytes.chunks 32 bs).zipIdx :=
      List.mk_mem_zipIdx_iff_getElem?.mpr (List.getElem?_eq_getElem hi)
    exact hdata ⟨dataSlot slot i, wordOfPrefix (Bytes.chunks 32 bs)[i]⟩
      (List.mem_map.mpr ⟨_, hmem, rfl⟩)

theorem holds_bytesWrites (contents : Contents) (hlt : bs.length < 2 ^ 255)
    (hapart : slot ∉ dataSlots slot bs) :
    (contents.writeAll (bytesWrites slot bs)).Holds (bytesWrites slot bs) := by
  apply Contents.holds_writeAll
  rw [map_slot_bytesWrites]
  exact List.nodup_cons.mpr ⟨hapart, nodup_dataSlots slot hlt⟩

end

end ComputeRelay
