import Mathlib.Data.List.Induction
import Mathlib.Tactic.Lemma
import ChainReplay.Bytes.Basic

/-! Big-endian numbers: a byte string stands for one number of its width, and a number that fits has
one byte string of that width. -/

namespace ChainReplay.Bytes

@[simp] lemma length_ofNat (width n : Nat) : (ofNat width n).length = width := by
  induction width generalizing n with
  | zero => rfl
  | succ width ih => rw [ofNat, List.length_append, ih, List.length_singleton]

lemma toNat_concat (bs : Bytes) (b : UInt8) : toNat (bs ++ [b]) = toNat bs * 256 + b.toNat := by
  simp [toNat]

lemma toNat_ofNat {width n : Nat} (h : n < 256 ^ width) : toNat (ofNat width n) = n := by
  induction width generalizing n with
  | zero =>
    rw [Nat.pow_zero, Nat.lt_one_iff] at h
    rw [h]
    rfl
  | succ width ih =>
    rw [Nat.pow_succ] at h
    rw [ofNat, toNat_concat, ih (Nat.div_lt_of_lt_mul (Nat.mul_comm _ _ ▸ h)), UInt8.toNat_ofNat']
    omega

lemma ofNat_concat (width n : Nat) (b : UInt8) :
    ofNat (width + 1) (n * 256 + b.toNat) = ofNat width n ++ [b] := by
  have hb := b.toNat_lt
  have hdiv : (n * 256 + b.toNat) / 256 = n := by omega
  have hlast : UInt8.ofNat (n * 256 + b.toNat) = b := by
    rw [← UInt8.toNat_inj, UInt8.toNat_ofNat']
    omega
  rw [ofNat, hdiv, hlast]

lemma ofNat_toNat (bs : Bytes) : ofNat bs.length (toNat bs) = bs := by
  induction bs using List.reverseRecOn with
  | nil => rfl
  | append_singleton bs b ih =>
    rw [List.length_append, List.length_singleton, toNat_concat, ofNat_concat, ih]

lemma toNat_lt (bs : Bytes) : toNat bs < 256 ^ bs.length := by
  induction bs using List.reverseRecOn with
  | nil => exact Nat.one_pos
  | append_singleton bs b ih =>
    have hb := b.toNat_lt
    rw [List.length_append, List.length_singleton, Nat.pow_succ, toNat_concat]
    omega

/-- The number of eight bytes, read with a sign, fits into them and determines them. -/
lemma toInt_eq_iff {bs : Bytes} (h : bs.length = 8) (n : Int) :
    toInt bs = n ↔ (-2 ^ 63 ≤ n ∧ n < 2 ^ 63) ∧ toNat bs = (n % 2 ^ 64).toNat := by
  have hlt := toNat_lt bs
  rw [toInt]
  rw [h] at hlt ⊢
  simp only [Int.reducePow, Nat.reducePow] at hlt ⊢
  split <;> omega

end ChainReplay.Bytes
