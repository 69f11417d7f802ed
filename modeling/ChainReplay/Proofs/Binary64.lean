import Mathlib.Data.Rat.Floor
import ChainReplay.Binary64

/-! How large the integer part of a number of double precision can be. -/

namespace ChainReplay.Binary64

lemma roundedQuotient_le {num den bound : Nat} (h : num < bound * den) :
    roundedQuotient num den ≤ bound := by
  have hlt : num / den < bound := Nat.div_lt_of_lt_mul (Nat.mul_comm bound den ▸ h)
  rw [roundedQuotient]
  split <;> omega

/-- Scaled by so much, a fraction is less than twice as large as a mantissa can be. -/
lemma scaled_lt {num den : Nat} (hden : den ≠ 0) {e : Int}
    (he : (num.log2 : Int) - den.log2 - 53 ≤ e) :
    (scaled num den e).1 < 2 ^ 54 * (scaled num den e).2 := by
  have hnum : num < 2 ^ (num.log2 + 1) := Nat.lt_log2_self
  have hlow : 2 ^ den.log2 ≤ den := Nat.log2_self_le hden
  rw [scaled]
  split
  case isTrue =>
    calc num * 2 ^ e.natAbs < 2 ^ (num.log2 + 1) * 2 ^ e.natAbs :=
          Nat.mul_lt_mul_of_pos_right hnum (Nat.two_pow_pos _)
      _ = 2 ^ (num.log2 + 1 + e.natAbs) := (Nat.pow_add ..).symm
      _ ≤ 2 ^ (54 + den.log2) := Nat.pow_le_pow_right (by decide) (by omega)
      _ = 2 ^ 54 * 2 ^ den.log2 := Nat.pow_add ..
      _ ≤ 2 ^ 54 * den := Nat.mul_le_mul_left _ hlow
  case isFalse =>
    calc num < 2 ^ (num.log2 + 1) := hnum
      _ ≤ 2 ^ (54 + (den.log2 + e.natAbs)) := Nat.pow_le_pow_right (by decide) (by omega)
      _ = 2 ^ 54 * (2 ^ den.log2 * 2 ^ e.natAbs) := by rw [Nat.pow_add, Nat.pow_add]
      _ ≤ 2 ^ 54 * (den * 2 ^ e.natAbs) :=
          Nat.mul_le_mul_left _ (Nat.mul_le_mul_right _ hlow)

/-- No integer part is larger. -/
def partBound : Nat := 2 ^ 54 * 2 ^ greatestExponent.natAbs

lemma natAbs_of_truncate? {negative : Bool} {m : Nat} {e n : Int} (hm : m ≤ 2 ^ 54)
    (he : e ≤ greatestExponent) (h : (finite negative m e).truncate? = some n) :
    n.natAbs ≤ partBound := by
  have hpart : (if e < 0 then m / 2 ^ e.natAbs else m * 2 ^ e.natAbs) ≤ partBound := by
    rw [partBound]
    split
    case isTrue =>
      calc m / 2 ^ e.natAbs ≤ m := Nat.div_le_self ..
        _ ≤ 2 ^ 54 := hm
        _ ≤ 2 ^ 54 * 2 ^ greatestExponent.natAbs := Nat.le_mul_of_pos_right _ (Nat.two_pow_pos _)
    case isFalse hneg =>
      have hexponent : e.natAbs ≤ greatestExponent.natAbs := by omega
      exact Nat.mul_le_mul hm (Nat.pow_le_pow_right (by decide) hexponent)
  rw [truncate?] at h
  cases h
  cases negative with
  | true =>
    rw [if_pos rfl, Int.natAbs_neg, Int.natAbs_natCast]
    exact hpart
  | false =>
    rw [if_neg Bool.false_ne_true, Int.natAbs_natCast]
    exact hpart

lemma le_exponentOf (num den : Nat) : (num.log2 : Int) - den.log2 - 53 ≤ exponentOf num den := by
  rw [exponentOf]
  generalize (num.log2 : Int) - den.log2 - 53 = guess
  dsimp only
  split <;> omega

lemma natAbs_of_ofFraction {negative : Bool} {num den : Nat} (hden : den ≠ 0) {n : Int}
    (h : (ofFraction negative num den).truncate? = some n) : n.natAbs ≤ partBound := by
  revert h
  fun_cases ofFraction negative num den
  case case1 => exact natAbs_of_truncate? (Nat.zero_le _) (by decide)
  case case2 => simp [truncate?]
  case case3 e a b hscaled m m' e' hcarry hgreatest =>
    have hexponent : (num.log2 : Int) - den.log2 - 53 ≤ e :=
      Int.le_trans (le_exponentOf num den) (Int.le_max_left _ leastExponent)
    have hm : m ≤ 2 ^ 54 := roundedQuotient_le (by simpa only [hscaled] using scaled_lt hden hexponent)
    have hm' : m' ≤ 2 ^ 54 := by
      split at hcarry
      case isTrue =>
        cases hcarry
        decide
      case isFalse =>
        cases hcarry
        exact hm
    exact natAbs_of_truncate? hm' (Int.not_lt.mp hgreatest)

lemma natAbs_of_ofDecimal {negative : Bool} {digits : Nat} {exponent n : Int}
    (h : (ofDecimal negative digits exponent).truncate? = some n) : n.natAbs ≤ partBound := by
  rw [ofDecimal] at h
  split at h
  case isTrue => exact natAbs_of_truncate? (Nat.zero_le _) (by decide) h
  split at h
  case isTrue => cases h
  split at h
  case isTrue => exact natAbs_of_ofFraction (Nat.ne_of_gt (Nat.pow_pos (by decide))) h
  case isFalse => exact natAbs_of_ofFraction Nat.one_ne_zero h

end ChainReplay.Binary64

/-! The exact value of a number of double precision, and what is left of it without its fraction. -/

namespace ChainReplay

def wholePart (q : ℚ) : Int := if 0 ≤ q then ⌊q⌋ else ⌈q⌉

lemma wholePart_of_nonneg {q : ℚ} (h : 0 ≤ q) : wholePart q = ⌊q⌋ := if_pos h

lemma wholePart_intCast (n : Int) : wholePart n = n := by
  rw [wholePart, Int.floor_intCast, Int.ceil_intCast, ite_self]

lemma wholePart_neg {q : ℚ} (h : 0 ≤ q) : wholePart (-q) = -⌊q⌋ := by
  rw [wholePart]
  split
  case isTrue hneg =>
    have hzero : q = 0 := le_antisymm (neg_nonneg.mp hneg) h
    simp [hzero]
  case isFalse => exact Int.ceil_neg

namespace Binary64

def value? : Binary64 → Option ℚ
  | finite negative m e => some ((if negative then -1 else 1) * (m * (2 : ℚ) ^ e))
  | _ => none

lemma floor_scaled (m : Nat) (e : Int) :
    ⌊(m : ℚ) * 2 ^ e⌋ = ((if e < 0 then m / 2 ^ e.natAbs else m * 2 ^ e.natAbs : Nat) : Int) := by
  split
  case isTrue he =>
    have hscale : (m : ℚ) * 2 ^ e = (m : ℚ) / ((2 ^ e.natAbs : Nat) : ℚ) := by
      obtain ⟨k, rfl⟩ := Int.exists_eq_neg_ofNat (Int.le_of_lt he)
      rw [Int.natAbs_neg, Int.natAbs_natCast, zpow_neg, zpow_natCast, Nat.cast_pow, div_eq_mul_inv]
      rfl
    rw [hscale, Rat.floor_natCast_div_natCast, Int.natCast_div]
  case isFalse he =>
    have hscale : (m : ℚ) * 2 ^ e = ((m * 2 ^ e.natAbs : Nat) : ℚ) := by
      obtain ⟨k, rfl⟩ := Int.eq_ofNat_of_zero_le (Int.not_lt.mp he)
      rw [Int.natAbs_natCast, zpow_natCast, Nat.cast_mul, Nat.cast_pow]
      rfl
    rw [hscale, Int.floor_natCast]

lemma truncate?_eq (x : Binary64) : x.truncate? = x.value?.map wholePart := by
  cases x with
  | nan | infinite => rfl
  | finite negative m e =>
    have hpositive : (0 : ℚ) ≤ m * 2 ^ e :=
      mul_nonneg (Nat.cast_nonneg m) (zpow_nonneg zero_le_two e)
    simp only [truncate?, value?, Option.map_some, Option.some.injEq]
    cases negative with
    | false =>
      rw [if_neg Bool.false_ne_true, if_neg Bool.false_ne_true, one_mul,
        wholePart_of_nonneg hpositive, floor_scaled]
    | true => rw [if_pos rfl, if_pos rfl, neg_one_mul, wholePart_neg hpositive, floor_scaled]

end Binary64

end ChainReplay
