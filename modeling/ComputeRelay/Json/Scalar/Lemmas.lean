import ComputeRelay.Json.Scalar
import ComputeRelay.Word.Lemmas

/-! Single values in JSON: what is written of a number, a byte string, an address or a hash is read
back as the same value. -/

namespace ComputeRelay

theorem foldl_decimal {cs : List Char} (h : ∀ c ∈ cs, '0' ≤ c ∧ c ≤ '9') (m : Nat) :
    cs.foldl (fun n c => do
      let n ← n
      if '0' ≤ c ∧ c ≤ '9' then some (n * 10 + (c.toNat - 48)) else none) (some m) =
      some (Nat.ofDigitChars 10 cs m) := by
  induction cs generalizing m with
  | nil => rfl
  | cons c cs ih =>
    obtain ⟨hc, hcs⟩ := List.forall_mem_cons.mp h
    rw [List.foldl_cons]
    change List.foldl _ (if '0' ≤ c ∧ c ≤ '9' then some (m * 10 + (c.toNat - 48)) else none) cs = _
    rw [if_pos hc, ih hcs, Nat.ofDigitChars_cons, Nat.mul_comm]
    rfl

theorem natural?_toDigits (n : Nat) : natural? (String.ofList (Nat.toDigits 10 n)) = some n := by
  have hdigits : ∀ c ∈ Nat.toDigits 10 n, '0' ≤ c ∧ c ≤ '9' := by
    intro c hc
    have h := Nat.isDigit_of_mem_toDigits (by decide) (by decide) hc
    simpa [Char.isDigit, Char.le_def] using h
  have hnonempty : (Nat.toDigits 10 n).isEmpty = false := by
    simp
  rw [natural?, String.toList_ofList]
  simp only [hnonempty, Bool.false_eq_true, if_false]
  rw [foldl_decimal hdigits, Nat.ofDigitChars_toDigits (by decide) (by decide)]

theorem natural?_toString (n : Nat) : natural? (toString n) = some n := by
  have h : toString n = String.ofList (Nat.toDigits 10 n) := by
    rw [← String.toList_inj, String.toList_ofList]
    exact Nat.toList_repr
  rw [h, natural?_toDigits]

theorem digitsValue?_append (base : Nat) (cs ds : List Char) (value : Nat) :
    digitsValue? base (cs ++ ds) value =
      (digitsValue? base cs value).bind fun value => digitsValue? base ds value := by
  induction cs generalizing value with
  | nil => rfl
  | cons c cs ih =>
    rw [List.cons_append, digitsValue?, digitsValue?]
    by_cases hc : c = '_'
    · rw [if_pos hc, if_pos hc, ih]
    · rw [if_neg hc, if_neg hc]
      cases hexValue? c with
      | none => rfl
      | some d =>
        simp only [Option.bind_eq_bind, Option.bind_some]
        split
        · exact ih _
        · rfl

theorem digitsValue?_digitChar {d : Nat} (hd : d < 16) (value : Nat) :
    digitsValue? 16 [d.digitChar] value = some (value * 16 + d) := by
  have hread : ∀ d < 16, d.digitChar ≠ '_' ∧ hexValue? d.digitChar = some d := by decide
  obtain ⟨hmark, hvalue⟩ := hread d hd
  rw [digitsValue?, if_neg hmark, hvalue]
  simp only [Option.bind_eq_bind, Option.bind_some, if_pos hd]
  rfl

theorem digitsValue?_toDigits (n : Nat) : digitsValue? 16 (Nat.toDigits 16 n) 0 = some n := by
  induction n using Nat.strong_induction_on with
  | _ n ih =>
    by_cases hn : n < 16
    · rw [Nat.toDigits_of_lt_base hn, digitsValue?_digitChar hn, Nat.zero_mul, Nat.zero_add]
    · rw [Nat.toDigits_of_base_le (by decide) (by omega), digitsValue?_append,
        ih (n / 16) (by omega), Option.bind_some, digitsValue?_digitChar (by omega)]
      congr 1
      omega

theorem Word.parse?_toHex (w : Word) : Word.parse? w.toHex = some w := by
  have hbase : splitBase ('0' :: 'x' :: Nat.toDigits 16 w.toNat) =
      (16, Nat.toDigits 16 w.toNat) := rfl
  rw [parse?, toHex, String.toList_ofList, hbase]
  simp only [digitsValue?_toDigits, Option.bind_some]
  exact ofNat?_eq_some_iff.mpr rfl

theorem Address.ofBytes_toBytes (a : Address) : ofBytes a.toBytes = a := by
  have ha : a.toNat < 256 ^ 20 := a.isLt
  rw [ofBytes, toBytes, Bytes.toNat_ofNat_of_lt ha, BitVec.ofNat_toNat, BitVec.setWidth_eq]

namespace Json

theorem nat64?_ofNat {n : Nat} (h : n < UInt64.size) : (ofNat n).nat64? = some n := by
  rw [ofNat, nat64?, natural?_toString, Option.filter_some, if_pos (by simpa using h)]

@[simp] theorem uint64?_ofUInt64 (n : UInt64) : (ofUInt64 n).uint64? = some n := by
  rw [uint64?, ofUInt64, nat64?_ofNat n.toNat_lt, Option.map_some, UInt64.ofNat_toNat]

@[simp] theorem word?_ofWord (w : Word) : (ofWord w).word? = some w := Word.parse?_toHex w

@[simp] theorem bytes?_ofBytes (bs : Bytes) : (ofBytes bs).bytes? = some bs := Bytes.ofHex?_toHex bs

theorem sizedBytes?_ofBytes {size : Nat} {bs : Bytes} (h : bs.length = size) :
    (ofBytes bs).sizedBytes? size = some bs := by
  rw [sizedBytes?, bytes?_ofBytes, Option.filter_some, if_pos (by simpa using h)]

@[simp] theorem address?_ofAddress (a : Address) : (ofAddress a).address? = some a := by
  have h : (ofAddress a).sizedBytes? 20 = some a.toBytes :=
    sizedBytes?_ofBytes (Bytes.length_ofNat 20 _)
  rw [address?, h, Option.map_some, Address.ofBytes_toBytes]

@[simp] theorem hash?_ofHash (h : Hash) : (ofHash h).hash? = some h := by
  have hread : (ofHash h).sizedBytes? 32 = some (Word.toBytes h) :=
    sizedBytes?_ofBytes (Word.length_toBytes h)
  rw [hash?, hread, Option.map_some, Word.ofBytes_toBytes]

end Json

end ComputeRelay
