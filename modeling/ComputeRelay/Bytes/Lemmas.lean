import ComputeRelay.Bytes
import Mathlib

/-! The number that a byte string spells: how it splits along the string, how large it can be, and
that writing a number and reading it back keeps its low bytes. What is written in hexadecimal
digits is read back as a whole. -/

namespace ComputeRelay.Bytes

theorem toNat_append (a b : Bytes) : toNat (a ++ b) = toNat a * 256 ^ b.length + toNat b := by
  have shift (bs : Bytes) (n : Nat) :
      bs.foldl (fun n b => n * 256 + b.toNat) n = n * 256 ^ bs.length + toNat bs := by
    induction bs generalizing n with
    | nil => simp [toNat]
    | cons c cs ih =>
      have h := ih (0 * 256 + c.toNat)
      simp only [toNat, List.foldl_cons, List.length_cons, ih (n * 256 + c.toNat)] at h ⊢
      rw [h, Nat.pow_succ, Nat.zero_mul, Nat.zero_add, Nat.add_mul, Nat.add_assoc, Nat.mul_assoc,
        Nat.mul_comm 256]
  rw [toNat, List.foldl_append, shift]
  rfl

theorem toNat_cons (b : UInt8) (bs : Bytes) :
    toNat (b :: bs) = b.toNat * 256 ^ bs.length + toNat bs := by
  have h := toNat_append [b] bs
  simpa [toNat] using h

theorem toNat_concat (bs : Bytes) (b : UInt8) : toNat (bs ++ [b]) = toNat bs * 2 ^ 8 + b.toNat := by
  rw [toNat_append]
  simp [toNat]

theorem toNat_lt (bs : Bytes) : toNat bs < 256 ^ bs.length := by
  induction bs with
  | nil => simp [toNat]
  | cons b bs ih =>
    rw [toNat_cons, List.length_cons, Nat.pow_succ]
    have hb : b.toNat < 256 := b.toNat_lt
    calc b.toNat * 256 ^ bs.length + toNat bs
        < b.toNat * 256 ^ bs.length + 256 ^ bs.length := by omega
      _ = (b.toNat + 1) * 256 ^ bs.length := by rw [Nat.add_mul, Nat.one_mul]
      _ ≤ 256 * 256 ^ bs.length := Nat.mul_le_mul_right _ (by omega)
      _ = 256 ^ bs.length * 256 := Nat.mul_comm ..

theorem toNat_ofNat (width n : Nat) : toNat (ofNat width n) = n % 256 ^ width := by
  induction width with
  | zero => simp [ofNat, toNat, Nat.mod_one]
  | succ width ih =>
    rw [ofNat, toNat_cons, ih, length_ofNat, UInt8.toNat_ofNat', Nat.shiftRight_eq_div_pow,
      Nat.pow_mul, Nat.pow_succ (m := width), Nat.mod_mul]
    simp only [Nat.reducePow]
    rw [Nat.mul_comm, Nat.add_comm]

theorem toNat_ofNat_of_lt {width n : Nat} (h : n < 256 ^ width) : toNat (ofNat width n) = n := by
  rw [toNat_ofNat, Nat.mod_eq_of_lt h]

theorem toNat_inj {a b : Bytes} (hlength : a.length = b.length) (h : toNat a = toNat b) :
    a = b := by
  induction a generalizing b with
  | nil => exact (List.length_eq_zero_iff.mp hlength.symm).symm
  | cons x xs ih =>
    obtain ⟨y, ys, rfl⟩ := List.exists_cons_of_length_eq_add_one hlength.symm
    have hrest : xs.length = ys.length := by simpa using hlength
    have hx := toNat_lt xs
    have hy := toNat_lt ys
    rw [toNat_cons, toNat_cons, hrest] at h
    rw [hrest] at hx
    have hdiv : ∀ n r : Nat, r < 256 ^ ys.length →
        (n * 256 ^ ys.length + r) / 256 ^ ys.length = n := by
      intro n r hr
      rw [Nat.mul_comm, Nat.mul_add_div (Nat.pow_pos (by decide)), Nat.div_eq_of_lt hr,
        Nat.add_zero]
    have hhead : x.toNat = y.toNat := by rw [← hdiv x.toNat _ hx, h, hdiv y.toNat _ hy]
    have htail : toNat xs = toNat ys := by
      rw [hhead] at h
      omega
    rw [UInt8.toNat_inj.mp hhead, ih hrest htail]

theorem ofNat_toNat (bs : Bytes) : ofNat bs.length (toNat bs) = bs :=
  toNat_inj (length_ofNat _ _) (toNat_ofNat_of_lt (toNat_lt bs))

theorem hexValue?_hexDigit : ∀ n < 16, hexValue? (hexDigit n) = some n := by
  decide

theorem ofHexChars?_hexChars (bs : Bytes) : ofHexChars? bs.hexChars = some bs := by
  induction bs with
  | nil => rfl
  | cons b bs ih =>
    have hb := b.toNat_lt
    have hsplit : UInt8.ofNat (16 * (b.toNat / 16) + b.toNat % 16) = b := by
      rw [Nat.div_add_mod, UInt8.ofNat_toNat]
    rw [hexChars, List.flatMap_cons, List.cons_append, List.singleton_append, ofHexChars?,
      hexValue?_hexDigit _ (by omega), hexValue?_hexDigit _ (by omega), ← hexChars, ih]
    simp only [Option.bind_eq_bind, Option.bind_some, Option.pure_def, hsplit]

theorem ofHex?_toHex (bs : Bytes) : ofHex? bs.toHex = some bs := by
  rw [ofHex?, toHex, String.toList_ofList]
  exact ofHexChars?_hexChars bs

end ComputeRelay.Bytes
