import ComputeRelay.Bytes.Lemmas
import ComputeRelay.Word

/-! Words as numbers and as bytes: what the operations that do not wrap do to the numbers, that
thirty-two bytes hold a word, and that words written one after another can be told apart. -/

namespace ComputeRelay.Word

theorem length_toBytes (w : Word) : w.toBytes.length = 32 := Bytes.length_ofNat 32 _

theorem ofBytes_toBytes (w : Word) : ofBytes w.toBytes = w := by
  have hw : w.toNat < 256 ^ 32 := w.isLt
  rw [ofBytes, toBytes, Bytes.toNat_ofNat_of_lt hw, BitVec.ofNat_toNat, BitVec.setWidth_eq]

theorem toBytes_inj {v w : Word} : v.toBytes = w.toBytes ↔ v = w := by
  constructor
  · intro h
    rw [← ofBytes_toBytes v, h, ofBytes_toBytes]
  · rintro rfl
    rfl

theorem toBytes_ofBytes {bs : Bytes} (h : bs.length = 32) : (ofBytes bs).toBytes = bs := by
  have hbound := Bytes.toNat_lt bs
  rw [h] at hbound
  have hlt : bs.toNat < 2 ^ 256 := hbound
  rw [toBytes, ofBytes, BitVec.toNat_ofNat, Nat.mod_eq_of_lt hlt, ← h, Bytes.ofNat_toNat]

theorem toNat_ofBytes_concat {bs : Bytes} (h : bs.length = 31) (b : UInt8) :
    (ofBytes (bs ++ [b])).toNat = bs.toNat * 2 ^ 8 + b.toNat := by
  have hbound := Bytes.toNat_lt bs
  rw [h] at hbound
  have hlt : bs.toNat < 2 ^ 248 := hbound
  have hb : b.toNat < 2 ^ 8 := b.toNat_lt
  rw [ofBytes, BitVec.toNat_ofNat, Bytes.toNat_concat, Nat.mod_eq_of_lt (by omega)]

/-- Words that are written one after another are known from the bytes, and so is their number. -/
theorem flatMap_toBytes_inj {vs ws : List Word} :
    vs.flatMap toBytes = ws.flatMap toBytes ↔ vs = ws := by
  constructor
  · intro h
    induction vs generalizing ws with
    | nil =>
      cases ws with
      | nil => rfl
      | cons w ws =>
        have hlength := congrArg List.length h
        rw [List.flatMap_cons, List.length_append, length_toBytes, List.flatMap_nil,
          List.length_nil] at hlength
        omega
    | cons v vs ih =>
      cases ws with
      | nil =>
        have hlength := congrArg List.length h
        rw [List.flatMap_cons, List.length_append, length_toBytes, List.flatMap_nil,
          List.length_nil] at hlength
        omega
      | cons w ws =>
        rw [List.flatMap_cons, List.flatMap_cons] at h
        obtain ⟨hfirst, hrest⟩ := List.append_inj h (by rw [length_toBytes, length_toBytes])
        rw [toBytes_inj.mp hfirst, ih hrest]
  · rintro rfl
    rfl

theorem toNat_ofUInt64 (n : UInt64) : (ofUInt64 n).toNat = n.toNat := by
  rw [ofUInt64, BitVec.toNat_ofNat]
  exact Nat.mod_eq_of_lt (n.toNat_lt.trans (by decide))

theorem ofUInt64_inj {m n : UInt64} : ofUInt64 m = ofUInt64 n ↔ m = n := by
  rw [← BitVec.toNat_inj, toNat_ofUInt64, toNat_ofUInt64, UInt64.toNat_inj]

theorem toNat_larger (a b : Word) : (larger a b).toNat = Max.max a.toNat b.toNat := by
  unfold larger
  split <;> omega

theorem toNat_saturatingSub (a b : Word) : (saturatingSub a b).toNat = a.toNat - b.toNat := by
  have ha := a.isLt
  rw [saturatingSub, BitVec.toNat_ofNat, Nat.mod_eq_of_lt (by omega)]

theorem checkedAdd_eq_none_iff {a b : Word} :
    checkedAdd a b = none ↔ 2 ^ 256 ≤ a.toNat + b.toNat := by
  have hfits : (BitVec.ofNat 256 (a.toNat + b.toNat)).toNat = a.toNat + b.toNat ↔
      a.toNat + b.toNat < 2 ^ 256 := by
    rw [BitVec.toNat_ofNat]
    exact Nat.mod_eq_iff_lt (by decide)
  rw [← Nat.not_lt, ← hfits]
  simp only [checkedAdd, ofNat?]
  split
  · rename_i h
    exact iff_of_false (Option.some_ne_none _) (not_not.mpr h)
  · rename_i h
    exact iff_of_true rfl h

/-- Three words are summed up exactly, or not at all when their sum does not fit. -/
theorem checkedSum_cases (a b c : Word) :
    (∃ sum, (checkedAdd a b).bind (checkedAdd · c) = some sum ∧
      sum.toNat = a.toNat + b.toNat + c.toNat) ∨
    (checkedAdd a b).bind (checkedAdd · c) = none ∧
      2 ^ 256 ≤ a.toNat + b.toNat + c.toNat := by
  cases hab : checkedAdd a b with
  | none =>
    have hle := checkedAdd_eq_none_iff.mp hab
    exact .inr ⟨rfl, by omega⟩
  | some ab =>
    have heq := checkedAdd_eq_some_iff.mp hab
    rw [Option.bind_some]
    cases habc : checkedAdd ab c with
    | none =>
      have hle := checkedAdd_eq_none_iff.mp habc
      exact .inr ⟨rfl, by omega⟩
    | some sum =>
      have heq' := checkedAdd_eq_some_iff.mp habc
      exact .inl ⟨sum, rfl, by omega⟩

end ComputeRelay.Word

namespace ComputeRelay.Address

theorem toNat_toWord (a : Address) : a.toWord.toNat = a.toNat := by
  have ha : a.toNat < 2 ^ 160 := a.isLt
  rw [toWord, BitVec.toNat_setWidth, Nat.mod_eq_of_lt (by omega)]

theorem toWord_inj {a b : Address} : a.toWord = b.toWord ↔ a = b := by
  rw [← BitVec.toNat_inj, toNat_toWord, toNat_toWord, BitVec.toNat_inj]

theorem length_toBytes (a : Address) : a.toBytes.length = 20 := Bytes.length_ofNat 20 _

/-- As a word an address stands behind twelve zero bytes. -/
theorem toBytes_toWord (a : Address) : a.toWord.toBytes = List.replicate 12 0 ++ a.toBytes := by
  have ha : a.toNat < 256 ^ 20 := a.isLt
  have hzero : Bytes.toNat (List.replicate 12 0) = 0 := by decide
  refine Bytes.toNat_inj ?_ ?_
  · rw [Word.length_toBytes, List.length_append, List.length_replicate, length_toBytes]
  · calc Bytes.toNat a.toWord.toBytes = a.toNat := by
          rw [Word.toBytes, toNat_toWord, Bytes.toNat_ofNat_of_lt (by omega)]
      _ = Bytes.toNat (List.replicate 12 0 ++ a.toBytes) := by
          rw [Bytes.toNat_append, hzero, toBytes, Bytes.toNat_ofNat_of_lt ha, Nat.zero_mul,
            Nat.zero_add]

end ComputeRelay.Address
