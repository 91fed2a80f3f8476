import ComputeRelay.CacheWrite
import ComputeRelay.Word.Lemmas

/-! Canonical encodings. What a list of values is encoded to decodes to it again, and nothing else
does; so the call data of cache writes is recognized exactly. A length stands in one word, so the
byte strings that are encoded have to be shorter than `2 ^ 256` bytes. -/

namespace ComputeRelay

namespace Abi

theorem readTail?_bytesTail {bs : Bytes} (h : bs.length < 2 ^ 256) (rest : Bytes) :
    readTail? (bytesTail bs ++ rest) = some (bs, rest) := by
  have hsize : Bytes.toNat (Bytes.ofNat 32 bs.length) = bs.length := Bytes.toNat_ofNat_of_lt h
  have htake : (bytesTail bs ++ rest).take 32 = Bytes.ofNat 32 bs.length := by
    rw [bytesTail, List.append_assoc, List.take_left' (Bytes.length_ofNat 32 _)]
  have hdrop : (bytesTail bs ++ rest).drop 32 =
      bs ++ (Bytes.padding 32 bs.length ++ rest) := by
    rw [bytesTail, List.append_assoc, List.drop_left' (Bytes.length_ofNat 32 _), List.append_assoc]
  have hlong : ¬ ((bytesTail bs ++ rest).length < 32 ∨
      (bs ++ (Bytes.padding 32 bs.length ++ rest)).length < bs.length) := by
    simp only [bytesTail, List.length_append, Bytes.length_ofNat]
    omega
  unfold readTail?
  simp only [htake, hdrop, hsize, if_neg hlong, List.take_left']
  rw [← List.drop_drop, List.drop_left' rfl, List.drop_left' rfl]

/-- The byte strings among the values have lengths that fit into a word. -/
def Fits (values : List Value) : Prop := ∀ bs, .bytes bs ∈ values → bs.length < 2 ^ 256

theorem length_heads (offset : Nat) (arguments : List Argument) :
    (heads offset arguments).length = 32 * arguments.length := by
  induction arguments generalizing offset with
  | nil => rfl
  | cons argument arguments ih =>
    cases argument with
    | word w =>
      simp only [heads, List.length_append, Word.length_toBytes, ih, List.length_cons]
      omega
    | tail t =>
      simp only [heads, List.length_append, Bytes.length_ofNat, ih, List.length_cons]
      omega

/-- The heads and the tails of encoded values read back as the values, wherever the tails are said
to start and whatever follows them. -/
theorem readValues?_heads_tails {values : List Value} (fits : Fits values) (offset : Nat)
    (rest : Bytes) :
    readValues? (values.map Value.kind) (heads offset (values.map Value.argument))
      (tails (values.map Value.argument) ++ rest) = some values := by
  induction values generalizing offset with
  | nil => rfl
  | cons value values ih =>
    have hrest : Fits values := fun bs hbs => fits bs (List.mem_cons_of_mem _ hbs)
    cases value with
    | word w =>
      have htake : (w.toBytes ++ heads offset (values.map Value.argument)).take 32 = w.toBytes :=
        List.take_left' (Word.length_toBytes w)
      have hdrop : (w.toBytes ++ heads offset (values.map Value.argument)).drop 32 =
          heads offset (values.map Value.argument) :=
        List.drop_left' (Word.length_toBytes w)
      simp only [List.map_cons, Value.kind, Value.argument, heads, tails, readValues?, htake, hdrop,
        ih hrest, Word.ofBytes_toBytes]
      rfl
    | bytes bs =>
      have hlt : bs.length < 2 ^ 256 := fits bs List.mem_cons_self
      have hdrop : ∀ rest : Bytes, (Bytes.ofNat 32 offset ++ rest).drop 32 = rest :=
        fun rest => List.drop_left' (Bytes.length_ofNat 32 offset)
      simp only [List.map_cons, Value.kind, Value.argument, Argument.bytes, heads, tails,
        List.append_assoc, readValues?, readTail?_bytesTail hlt, hdrop, Option.bind_eq_bind,
        Option.bind_some, ih hrest]
      rfl

/-- What follows an encoding is not looked at when its values are read. -/
theorem readValues?_encodeValues {values : List Value} (fits : Fits values) (rest : Bytes) :
    readValues? (values.map Value.kind)
      ((encodeValues values ++ rest).take (32 * (values.map Value.kind).length))
      ((encodeValues values ++ rest).drop (32 * (values.map Value.kind).length)) =
        some values := by
  have hsize : (heads (32 * (values.map Value.argument).length)
      (values.map Value.argument)).length = 32 * (values.map Value.kind).length := by
    rw [length_heads, List.length_map, List.length_map]
  rw [encodeValues, encode, List.append_assoc, List.take_left' hsize, List.drop_left' hsize]
  exact readValues?_heads_tails fits _ rest

theorem decode?_encodeValues (values : List Value) (fits : Fits values) :
    decode? (values.map Value.kind) (encodeValues values) = some values := by
  have hread := readValues?_encodeValues fits []
  rw [List.append_nil] at hread
  simp only [decode?, hread, Option.bind_eq_bind, Option.bind_some, guard_true, Option.pure_def]

theorem encodeValues_of_decode? {kinds : List Kind} {bs : Bytes} {values : List Value}
    (h : decode? kinds bs = some values) : encodeValues values = bs := by
  simp only [decode?, Option.bind_eq_bind, Option.bind_eq_some_iff, Option.guard_eq_some'] at h
  obtain ⟨read, -, _, heq, hread⟩ := h
  rwa [← Option.some.inj hread]

theorem length_lt_of_readTail? {tails bs rest : Bytes} (h : readTail? tails = some (bs, rest)) :
    bs.length < 2 ^ 256 := by
  unfold readTail? at h
  obtain ⟨hlong, h⟩ := Option.ite_none_left_eq_some.mp h
  have hword : (tails.take 32).length = 32 := by
    rw [List.length_take]
    omega
  have hsize := Bytes.toNat_lt (tails.take 32)
  rw [hword] at hsize
  rw [← (Prod.mk.inj (Option.some.inj h)).1]
  exact (List.length_take_le _ _).trans_lt hsize

theorem kinds_of_readValues? {kinds : List Kind} {heads tails : Bytes} {values : List Value}
    (h : readValues? kinds heads tails = some values) :
    values.map Value.kind = kinds ∧ Fits values := by
  induction kinds generalizing heads tails values with
  | nil =>
    obtain rfl := Option.some.inj h
    exact ⟨rfl, fun bs hbs => by cases hbs⟩
  | cons kind kinds ih =>
    cases kind with
    | word =>
      obtain ⟨rest, hrest, h⟩ := Option.bind_eq_some_iff.mp h
      obtain rfl := Option.some.inj h
      obtain ⟨hkinds, fits⟩ := ih hrest
      exact ⟨by rw [List.map_cons, hkinds]; rfl, by simpa [Fits] using fits⟩
    | bytes =>
      obtain ⟨⟨bs, tails⟩, htail, h⟩ := Option.bind_eq_some_iff.mp h
      obtain ⟨rest, hrest, h⟩ := Option.bind_eq_some_iff.mp h
      obtain rfl := Option.some.inj h
      obtain ⟨hkinds, fits⟩ := ih hrest
      have hlt := length_lt_of_readTail? htail
      exact ⟨by rw [List.map_cons, hkinds]; rfl, by simpa [Fits] using ⟨hlt, fits⟩⟩

/-- Decoding succeeds on canonical encodings and on nothing else. -/
theorem decode?_eq_some_iff {kinds : List Kind} {bs : Bytes} {values : List Value} :
    decode? kinds bs = some values ↔
      values.map Value.kind = kinds ∧ Fits values ∧ bs = encodeValues values := by
  constructor
  · intro h
    have hbs := encodeValues_of_decode? h
    simp only [decode?, Option.bind_eq_bind, Option.bind_eq_some_iff] at h
    obtain ⟨read, hread, _, -, h⟩ := h
    obtain rfl := Option.some.inj h
    obtain ⟨hkinds, fits⟩ := kinds_of_readValues? hread
    exact ⟨hkinds, fits, hbs.symm⟩
  · rintro ⟨rfl, fits, rfl⟩
    exact decode?_encodeValues values fits

/-- No encoding is the beginning of another one of the same kinds. -/
theorem encodeValues_prefix_free {values values' : List Value} (fits : Fits values)
    (fits' : Fits values') (hkinds : values.map Value.kind = values'.map Value.kind)
    (h : encodeValues values <+: encodeValues values') : values = values' := by
  obtain ⟨rest, hrest⟩ := h
  have hread := readValues?_encodeValues fits rest
  have hread' := readValues?_encodeValues fits' []
  rw [hrest, hkinds] at hread
  rw [List.append_nil] at hread'
  exact Option.some.inj (hread.symm.trans hread')

theorem dropSelector?_eq_some_iff {selector bs rest : Bytes} (hlength : selector.length = 4) :
    dropSelector? selector bs = some rest ↔ bs = selector ++ rest := by
  unfold dropSelector?
  constructor
  · intro h
    obtain ⟨htake, hdrop⟩ := Option.ite_none_right_eq_some.mp h
    rw [← htake, ← Option.some.inj hdrop, List.take_append_drop]
  · rintro rfl
    rw [if_pos (List.take_left' hlength), List.drop_left' hlength]

theorem uint?_eq_some_iff {bits n : Nat} {w : Word} :
    uint? bits w = some n ↔ w.toNat = n ∧ n < 2 ^ bits := by
  have hhigh : w >>> bits = 0 ↔ w.toNat < 2 ^ bits := by
    rw [← BitVec.toNat_inj, BitVec.toNat_ushiftRight, Nat.shiftRight_eq_div_pow]
    exact Nat.div_eq_zero_iff_lt (Nat.two_pow_pos bits)
  rw [uint?, Option.ite_none_right_eq_some, hhigh, Option.some.injEq]
  constructor
  · rintro ⟨hlt, rfl⟩
    exact ⟨rfl, hlt⟩
  · rintro ⟨rfl, hlt⟩
    exact ⟨hlt, rfl⟩

theorem address?_eq_some_iff {w : Word} {a : Address} : address? w = some a ↔ w = a.toWord := by
  have hword : a.toWord.toNat = a.toNat := a.toNat_toWord
  simp only [address?, Option.map_eq_some_iff, uint?_eq_some_iff]
  constructor
  · rintro ⟨n, ⟨rfl, hlt⟩, rfl⟩
    apply BitVec.eq_of_toNat_eq
    rw [hword, BitVec.toNat_ofNat, Nat.mod_eq_of_lt hlt]
  · rintro rfl
    refine ⟨a.toNat, ⟨hword, a.isLt⟩, ?_⟩
    rw [BitVec.ofNat_toNat, BitVec.setWidth_eq]

end Abi

open Abi

theorem Execute.decode?_encode {e : Execute} (fits : e.call.length < 2 ^ 256) :
    Execute.decode? e.encode = some e := by
  have hrest : dropSelector? selector e.encode =
      some (encodeValues [.word e.target.toWord, .word e.value, .bytes e.call]) :=
    (dropSelector?_eq_some_iff rfl).mpr rfl
  have hvalues : Abi.decode? [.word, .word, .bytes]
      (encodeValues [.word e.target.toWord, .word e.value, .bytes e.call]) =
        some [.word e.target.toWord, .word e.value, .bytes e.call] :=
    decode?_encodeValues [.word _, .word _, .bytes _] (by simpa [Fits] using fits)
  simp only [decode?, hrest, hvalues, Option.bind_eq_bind, Option.bind_some,
    address?_eq_some_iff.mpr rfl, Option.pure_def]

theorem Execute.eq_encode {bs : Bytes} {e : Execute} (h : Execute.decode? bs = some e) :
    bs = e.encode := by
  simp only [decode?, Option.bind_eq_bind, Option.bind_eq_some_iff] at h
  obtain ⟨rest, hrest, values, hvalues, h⟩ := h
  split at h
  · obtain ⟨target, htarget, he⟩ := Option.bind_eq_some_iff.mp h
    obtain rfl := Option.some.inj he
    rw [(dropSelector?_eq_some_iff rfl).mp hrest, ← encodeValues_of_decode? hvalues,
      address?_eq_some_iff.mp htarget]
    rfl
  · cases h

theorem PutResponse.decode?_encode {p : PutResponse} (payload : p.payload.length < 2 ^ 256)
    (signature : p.signature.length < 2 ^ 256) : PutResponse.decode? p.encode = some p := by
  have hrest : dropSelector? selector p.encode =
      some (encodeValues [.word p.requestId, .bytes p.payload, .bytes p.signature]) :=
    (dropSelector?_eq_some_iff rfl).mpr rfl
  have hvalues : Abi.decode? [.word, .bytes, .bytes]
      (encodeValues [.word p.requestId, .bytes p.payload, .bytes p.signature]) =
        some [.word p.requestId, .bytes p.payload, .bytes p.signature] :=
    decode?_encodeValues [.word _, .bytes _, .bytes _]
      (by simpa [Fits] using ⟨payload, signature⟩)
  simp only [decode?, hrest, hvalues, Option.bind_eq_bind, Option.bind_some, Option.pure_def]

theorem PutResponse.eq_encode {bs : Bytes} {p : PutResponse} (h : PutResponse.decode? bs = some p) :
    bs = p.encode := by
  simp only [decode?, Option.bind_eq_bind, Option.bind_eq_some_iff] at h
  obtain ⟨rest, hrest, values, hvalues, h⟩ := h
  split at h
  · obtain rfl := Option.some.inj h
    rw [(dropSelector?_eq_some_iff rfl).mp hrest, ← encodeValues_of_decode? hvalues]
    rfl
  · cases h

theorem PutResponse.length_le_encode (p : PutResponse) :
    p.payload.length ≤ p.encode.length ∧ p.signature.length ≤ p.encode.length := by
  have htail : ∀ bs : Bytes, bs.length ≤ (bytesTail bs).length := by
    intro bs
    simp only [bytesTail, List.length_append]
    omega
  have hpayload := htail p.payload
  have hsignature := htail p.signature
  simp only [encode, encodeValues, Abi.encode, List.map_cons, List.map_nil, Value.argument,
    Argument.bytes, tails, List.length_append, List.append_nil]
  omega

namespace CacheWrite

/-- A cache write is recognized as one to its own helper and to no other, as long as the length of
its inner call fits into a word, as that of every byte string in a memory does; and all call data
that is recognized as a cache write is one, to the byte. -/
theorem recognized_exactly :
    (∀ helper requestId payload signature,
      (PutResponse.mk requestId payload signature).encode.length < 2 ^ 256 →
      ∀ helper', decode? (encode helper requestId payload signature) helper' =
        if helper' = helper then some (requestId, payload) else none) ∧
    ∀ callData helper requestId payload, decode? callData helper = some (requestId, payload) →
      ∃ signature, callData = encode helper requestId payload signature := by
  constructor
  · intro helper requestId payload signature fits helper'
    obtain ⟨hpayload, hsignature⟩ :=
      PutResponse.length_le_encode ⟨requestId, payload, signature⟩
    have hexecute := Execute.decode?_encode
      (e := ⟨helper, 0, (PutResponse.mk requestId payload signature).encode⟩) fits
    have hput := PutResponse.decode?_encode (p := ⟨requestId, payload, signature⟩)
      (hpayload.trans_lt fits) (hsignature.trans_lt fits)
    unfold decode? encode
    simp only [hexecute, Option.bind_eq_bind, Option.bind_some, and_true]
    by_cases hhelper : helper = helper'
    · simp [hhelper, hput]
    · simp [hhelper, Ne.symm hhelper]
  · intro callData helper requestId payload h
    simp only [decode?, Option.bind_eq_bind, Option.bind_eq_some_iff, Option.guard_eq_some'] at h
    obtain ⟨execute, hexecute, _, ⟨rfl, hvalue⟩, put, hput, h⟩ := h
    obtain ⟨rfl, rfl⟩ := Prod.mk.inj (Option.some.inj h)
    refine ⟨put.signature, ?_⟩
    rw [Execute.eq_encode hexecute, encode, ← PutResponse.eq_encode hput, ← hvalue]

/-- A write with a payload of three bytes, read for its helper and for another one. -/
theorem recognized_write :
    decode? (encode 0xc1 0x11 [1, 2, 3] (List.replicate 65 4)) 0xc1 = some (0x11, [1, 2, 3]) ∧
      decode? (encode 0xc1 0x11 [1, 2, 3] (List.replicate 65 4)) 0xc2 = none ∧
      ∃ signature, encode 0xc1 0x11 [1, 2, 3] (List.replicate 65 4) =
        encode 0xc1 0x11 [1, 2, 3] signature := by
  have hread := recognized_exactly.1 0xc1 0x11 [1, 2, 3] (List.replicate 65 4) (by decide +kernel)
  have hown := (hread 0xc1).trans (if_pos rfl)
  exact ⟨hown, (hread 0xc2).trans (if_neg (by decide)), recognized_exactly.2 _ _ _ _ hown⟩

end CacheWrite

end ComputeRelay
