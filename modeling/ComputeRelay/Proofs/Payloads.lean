import ComputeRelay.Proofs.Canonical

/-! Payloads as byte strings. A payload has one encoding, and nothing else decodes: no beginning of
an encoding and no continuation of one, none with another offset word or other padding, and none
that a reader takes for the payload who follows the offset word and ignores the padding. -/

namespace ComputeRelay

open Abi

/-- The word at a place among the heads. -/
def Abi.headAt (bs : Bytes) (i : Nat) : Word := Word.ofBytes ((bs.drop (32 * i)).take 32)

theorem Abi.headAt_zero (w : Word) (rest : Bytes) : headAt (w.toBytes ++ rest) 0 = w := by
  rw [headAt, Nat.mul_zero, List.drop_zero, List.take_left' (Word.length_toBytes w),
    Word.ofBytes_toBytes]

theorem Abi.headAt_succ (w : Word) (rest : Bytes) (i : Nat) :
    headAt (w.toBytes ++ rest) (i + 1) = headAt rest i := by
  rw [headAt, headAt, Nat.mul_succ, Nat.add_comm, ← List.drop_drop,
    List.drop_left' (Word.length_toBytes w)]

namespace Payload

def codeWord (p : Payload) : Word := BitVec.ofNat 256 p.errorCode.toNat

def values (p : Payload) : List Value := [.word p.requestId, .word p.codeWord, .bytes p.result]

theorem encode_eq (p : Payload) : p.encode = encodeValues p.values := rfl

theorem fits_values {p : Payload} : Fits p.values ↔ p.result.length < 2 ^ 256 := by
  simp [Fits, values]

theorem toNat_codeWord (p : Payload) : p.codeWord.toNat = p.errorCode.toNat := by
  have hlt : p.errorCode.toNat < 2 ^ 32 := p.errorCode.toNat_lt
  rw [codeWord, BitVec.toNat_ofNat, Nat.mod_eq_of_lt (by omega)]

theorem decode?_eq_some_iff {bs : Bytes} {p : Payload} :
    decode? bs = some p ↔ bs = p.encode ∧ p.result.length < 2 ^ 256 := by
  simp only [decode?, Option.bind_eq_bind, Option.bind_eq_some_iff, Abi.decode?_eq_some_iff]
  constructor
  · rintro ⟨values, ⟨-, fits, rfl⟩, h⟩
    split at h
    · rename_i requestId code result
      obtain ⟨n, hn, h⟩ := Option.bind_eq_some_iff.mp h
      obtain rfl := Option.some.inj h
      obtain ⟨rfl, hlt⟩ := uint?_eq_some_iff.mp hn
      have hcode : codeWord ⟨requestId, UInt32.ofNat code.toNat, result⟩ = code := by
        apply BitVec.eq_of_toNat_eq
        rw [toNat_codeWord, UInt32.toNat_ofNat', Nat.mod_eq_of_lt hlt]
      rw [encode_eq, ← fits_values, Payload.values, hcode]
      exact ⟨rfl, fits⟩
    · cases h
  · rintro ⟨rfl, hresult⟩
    have hcode : uint? 32 p.codeWord = some p.errorCode.toNat :=
      uint?_eq_some_iff.mpr ⟨p.toNat_codeWord, p.errorCode.toNat_lt⟩
    refine ⟨p.values, ⟨rfl, fits_values.mpr hresult, rfl⟩, ?_⟩
    simp only [values, hcode, Option.bind_some, UInt32.ofNat_toNat, Option.pure_def]

theorem encode_prefix_free {p q : Payload} (hp : p.result.length < 2 ^ 256)
    (hq : q.result.length < 2 ^ 256) (h : p.encode <+: q.encode) : p.encode = q.encode := by
  rw [encode_eq, encode_eq,
    encodeValues_prefix_free (fits_values.mpr hp) (fits_values.mpr hq) rfl h]

theorem decode?_eq_none_of_comparable {bs bs' : Bytes} {p : Payload} (h : decode? bs = some p)
    (hpre : bs' <+: bs ∨ bs <+: bs') (hne : bs' ≠ bs) : decode? bs' = none := by
  rw [Option.eq_none_iff_forall_ne_some]
  intro q hq
  obtain ⟨rfl, hresult⟩ := decode?_eq_some_iff.mp h
  obtain ⟨rfl, hresult'⟩ := decode?_eq_some_iff.mp hq
  rcases hpre with hpre | hpre
  · exact hne (encode_prefix_free hresult' hresult hpre)
  · exact hne (encode_prefix_free hresult hresult' hpre).symm

/-- The parts of an encoding in their order, with any bytes for the offset word and the padding. -/
def encodeWith (p : Payload) (offset padding : Bytes) : Bytes :=
  Word.toBytes p.requestId ++ (p.codeWord.toBytes ++ (offset ++
    (Bytes.ofNat 32 p.result.length ++ (p.result ++ padding))))

theorem encode_eq_encodeWith (p : Payload) :
    p.encode = p.encodeWith (Bytes.ofNat 32 96) (Bytes.padding 32 p.result.length) := by
  simp only [encode_eq, encodeValues, values, Abi.encode, List.map_cons, List.map_nil,
    Value.argument, Argument.bytes, bytesTail, heads, tails, List.append_nil, List.append_assoc,
    encodeWith]
  rfl

/-- Where a part ends is known when it is reached, except for the result. -/
theorem encodeWith_parts {p q : Payload} {offset offset' padding padding' : Bytes}
    (hoffset : offset.length = offset'.length)
    (h : p.encodeWith offset padding = q.encodeWith offset' padding') :
    p.requestId = q.requestId ∧ p.errorCode = q.errorCode ∧ offset = offset' ∧
      Bytes.ofNat 32 p.result.length = Bytes.ofNat 32 q.result.length ∧
      p.result ++ padding = q.result ++ padding' := by
  have hword : ∀ v w : Word, v.toBytes.length = w.toBytes.length := fun v w => by
    rw [Word.length_toBytes, Word.length_toBytes]
  obtain ⟨hid, h⟩ := List.append_inj h (hword _ _)
  obtain ⟨hcode, h⟩ := List.append_inj h (hword _ _)
  obtain ⟨hoff, h⟩ := List.append_inj h hoffset
  obtain ⟨hsize, h⟩ := List.append_inj h (by rw [Bytes.length_ofNat, Bytes.length_ofNat])
  refine ⟨Word.toBytes_inj.mp hid, ?_, hoff, hsize, h⟩
  rw [← UInt32.toNat_inj, ← toNat_codeWord, ← toNat_codeWord, Word.toBytes_inj.mp hcode]

theorem encodeWith_inj {p q : Payload} {offset offset' padding padding' : Bytes}
    (hp : p.result.length < 2 ^ 256) (hq : q.result.length < 2 ^ 256)
    (hoffset : offset.length = offset'.length)
    (h : p.encodeWith offset padding = q.encodeWith offset' padding') :
    p = q ∧ offset = offset' ∧ padding = padding' := by
  obtain ⟨hid, hcode, hoff, hsize, h⟩ := encodeWith_parts hoffset h
  have hread : ∀ r : Payload, r.result.length < 2 ^ 256 →
      Bytes.toNat (Bytes.ofNat 32 r.result.length) = r.result.length :=
    fun r hr => Bytes.toNat_ofNat_of_lt hr
  have hlength : p.result.length = q.result.length := by
    rw [← hread p hp, hsize, hread q hq]
  obtain ⟨hresult, hpadding⟩ := List.append_inj h hlength
  refine ⟨?_, hoff, hpadding⟩
  calc p = ⟨p.requestId, p.errorCode, p.result⟩ := rfl
    _ = ⟨q.requestId, q.errorCode, q.result⟩ := by rw [hid, hcode, hresult]

/-- Also when a length does not fit into its word: encodings of the same size whose length words
agree hold results of one length. -/
theorem encode_injective : Function.Injective encode := by
  intro p q h
  rw [encode_eq_encodeWith, encode_eq_encodeWith] at h
  obtain ⟨hid, hcode, -, hsize, h⟩ := encodeWith_parts rfl h
  have hmod := congrArg Bytes.toNat hsize
  rw [Bytes.toNat_ofNat, Bytes.toNat_ofNat] at hmod
  have htotal := congrArg List.length h
  simp only [List.length_append, Bytes.padding, List.length_replicate] at htotal
  have hlength : p.result.length = q.result.length := by omega
  obtain ⟨hresult, -⟩ := List.append_inj h hlength
  calc p = ⟨p.requestId, p.errorCode, p.result⟩ := rfl
    _ = ⟨q.requestId, q.errorCode, q.result⟩ := by rw [hid, hcode, hresult]

theorem decode?_encodeWith {p : Payload} {offset : Bytes} (hresult : p.result.length < 2 ^ 256)
    (hoffset : offset.length = 32) (padding : Bytes) :
    decode? (p.encodeWith offset padding) =
      if offset = Bytes.ofNat 32 96 ∧ padding = Bytes.padding 32 p.result.length then some p
      else none := by
  split
  · rename_i h
    rw [h.1, h.2, ← encode_eq_encodeWith]
    exact decode?_eq_some_iff.mpr ⟨rfl, hresult⟩
  · rename_i h
    rw [Option.eq_none_iff_forall_ne_some]
    intro q hq
    obtain ⟨heq, hresult'⟩ := decode?_eq_some_iff.mp hq
    rw [encode_eq_encodeWith] at heq
    obtain ⟨rfl, hoff, hpadding⟩ := encodeWith_inj hresult hresult'
      (hoffset.trans (Bytes.length_ofNat 32 96).symm) heq
    exact h ⟨hoff, hpadding⟩

/-- Reads a payload wherever its offset word says that the result is. Neither the high bits of the
code are looked at, nor what lies between the parts or behind them. -/
def readLoosely? (bs : Bytes) : Option Payload := do
  let (result, _) ← readTail? (bs.drop (headAt bs 2).toNat)
  return ⟨headAt bs 0, UInt32.ofNat (headAt bs 1).toNat, result⟩

theorem readLoosely?_encode {p : Payload} (hresult : p.result.length < 2 ^ 256) :
    readLoosely? p.encode = some p := by
  have hoffset : Bytes.ofNat 32 96 = Word.toBytes 96 := rfl
  have hcode : UInt32.ofNat p.codeWord.toNat = p.errorCode := by
    rw [toNat_codeWord, UInt32.ofNat_toNat]
  have htail : p.encode.drop (32 + (32 + 32)) = bytesTail p.result := by
    rw [encode_eq_encodeWith, encodeWith, ← List.drop_drop, ← List.drop_drop,
      List.drop_left' (Word.length_toBytes _), List.drop_left' (Word.length_toBytes _),
      List.drop_left' (Bytes.length_ofNat 32 96), bytesTail]
  have hread := readTail?_bytesTail hresult []
  rw [List.append_nil, ← htail] at hread
  have hheads : headAt p.encode 0 = p.requestId ∧ headAt p.encode 1 = p.codeWord ∧
      headAt p.encode 2 = 96 := by
    rw [encode_eq_encodeWith, hoffset]
    simp only [encodeWith, headAt_zero, headAt_succ, and_self]
  obtain ⟨hid, hcodeAt, hoffsetAt⟩ := hheads
  simp only [readLoosely?, hid, hcodeAt, hoffsetAt, hcode]
  rw [show (96 : Word).toNat = 32 + (32 + 32) from rfl, hread]
  rfl

/-- A payload is decoded from its encoding, as long as the length of its result fits into a word, as
that of every byte string in a memory does, and from no other byte string. -/
theorem decoded_exactly :
    (∀ bs p, decode? bs = some p ↔ bs = p.encode ∧ p.result.length < 2 ^ 256) ∧
    (∀ bs bs' p, decode? bs = some p → bs' <+: bs ∨ bs <+: bs' → bs' ≠ bs → decode? bs' = none) ∧
    (∀ p offset padding, p.result.length < 2 ^ 256 → offset.length = 32 →
      decode? (p.encodeWith offset padding) =
        if offset = Bytes.ofNat 32 96 ∧ padding = Bytes.padding 32 p.result.length then some p
        else none) ∧
    (∀ bs p, readLoosely? bs = some p → bs ≠ p.encode → decode? bs = none) ∧
    ∀ bs bs' p, decode? bs = some p → decode? bs' = some p → bs = bs' := by
  refine ⟨fun bs p => decode?_eq_some_iff, fun bs bs' p => decode?_eq_none_of_comparable,
    fun p offset padding hresult hoffset => decode?_encodeWith hresult hoffset padding, ?_, ?_⟩
  · intro bs p hread hne
    rw [Option.eq_none_iff_forall_ne_some]
    intro q hq
    obtain ⟨rfl, hresult⟩ := decode?_eq_some_iff.mp hq
    rw [readLoosely?_encode hresult] at hread
    exact hne (congrArg encode (Option.some.inj hread))
  · intro bs bs' p h h'
    rw [(decode?_eq_some_iff.mp h).1, (decode?_eq_some_iff.mp h').1]

/-- An encoding without its last byte, one with another offset word, and a byte string that puts a
word between the heads and the result. -/
theorem decoded_variants :
    let p : Payload := ⟨0x11, 5, [1, 2, 3]⟩
    let apart : Bytes := Bytes.ofNat 32 0x11 ++ Bytes.ofNat 32 5 ++ Bytes.ofNat 32 128 ++
      Bytes.ofNat 32 0 ++ Bytes.ofNat 32 3 ++ [1, 2, 3]
    decode? p.encode = some p ∧ decode? (p.encode.take 159) = none ∧
      decode? (p.encodeWith (Bytes.ofNat 32 128) (Bytes.padding 32 3)) = none ∧
      readLoosely? apart = some p ∧ decode? apart = none := by
  intro p apart
  obtain ⟨hexact, hcomparable, hwith, hloose, -⟩ := decoded_exactly
  have hresult : p.result.length < 2 ^ 256 := by decide
  have hdecodes : decode? p.encode = some p := (hexact _ _).mpr ⟨rfl, hresult⟩
  have hread : readLoosely? apart = some p := by decide +kernel
  have hcut : p.encode.take 159 <+: p.encode := List.take_prefix 159 _
  refine ⟨hdecodes, ?_, ?_, hread, hloose _ _ hread (by decide +kernel)⟩
  · exact hcomparable _ _ _ hdecodes (.inl hcut) (by decide +kernel)
  · rw [hwith p _ _ hresult (Bytes.length_ofNat 32 128), if_neg (by decide +kernel)]

end Payload

end ComputeRelay
