import ChainReplay.Proofs.Text.Numeral

/-! Decimal numerals read back as the numbers that they were written for, as long as their digits
are not too many; and no numeral stands for a number of more digits. -/

namespace ChainReplay.Numeral

open Text

lemma isWritable_iff (n : Int) : isWritable n = true ↔ n.natAbs < 10 ^ mostDigits := by
  simp only [isWritable, decide_eq_true_eq]

lemma natural?_ofNat {n : Nat} (hn : n < 10 ^ mostDigits) : natural? 10 (Text.ofNat n) = some n := by
  obtain ⟨ds, hds, hlt, hne, hvalue⟩ := toDigits_eq (by decide : 1 < 10) n
  have hlength : (ofChars (Nat.toDigits 10 n)).length ≤ mostDigits := by
    have hiff := Nat.length_toDigits_le_iff (n := n) (by decide : 1 < 10) (by decide : 0 < mostDigits)
    simpa only [ofChars, List.length_map] using hiff.mpr hn
  have hcount : ¬mostDigits < (ofChars (Nat.toDigits 10 n)).countP (· != .ofChar '_') :=
    Nat.not_lt.mpr (Nat.le_trans List.countP_le_length hlength)
  rw [natural?, Text.ofNat, if_neg (by simpa using hcount), hds,
    digitsFrom_digits (by decide) hlt 0 false (absurd · hne), hvalue]

lemma signed_minus_digits {ds : List Nat} (hlt : ∀ d ∈ ds, d < 16) (read : Text → Option Nat) :
    signed (.ofChar '-' :: ofChars (ds.map Nat.digitChar)) read =
      (read (ofChars (ds.map Nat.digitChar))).map fun (n : Nat) => -(n : Int) := by
  have hstrip : stripBy isNumeralBlank (.ofChar '-' :: ofChars (ds.map Nat.digitChar)) =
      .ofChar '-' :: ofChars (ds.map Nat.digitChar) := by
    apply stripBy_of_forall
    simp only [ofChars, List.forall_mem_cons, List.forall_mem_map]
    exact ⟨by decide, fun d hd => (digitChar_ne (hlt d hd)).2.2.2.2.2⟩
  have hsplit : splitSign (.ofChar '-' :: ofChars (ds.map Nat.digitChar)) =
      (true, ofChars (ds.map Nat.digitChar)) := by rw [splitSign, if_pos rfl]
  rw [signed]
  rw [hstrip, hsplit]
  dsimp only
  cases read (ofChars (ds.map Nat.digitChar)) <;> rfl

theorem integer?_ofInt {n : Int} (hn : isWritable n = true) : integer? (Text.ofInt n) = some n := by
  rw [isWritable_iff] at hn
  have hbase {d : Nat} (hd : d < 10) : d < 16 := Nat.lt_trans hd (by decide)
  cases n with
  | ofNat n =>
    obtain ⟨ds, hds, hlt, hne, -⟩ := toDigits_eq (by decide : 1 < 10) n
    have hread : natural? 10 (Text.ofNat n) = some n := natural?_ofNat hn
    rw [Text.ofNat, hds] at hread
    rw [integer?, Text.ofInt, Text.ofNat, hds, signed_digits (fun d hd => hbase (hlt d hd)) hne, hread]
    rfl
  | negSucc n =>
    obtain ⟨ds, hds, hlt, -⟩ := toDigits_eq (by decide : 1 < 10) (n + 1)
    have hread : natural? 10 (Text.ofNat (n + 1)) = some (n + 1) := natural?_ofNat hn
    rw [Text.ofNat, hds] at hread
    have hsigned := signed_minus_digits (fun d hd => hbase (hlt d hd)) (natural? 10)
    rw [integer?, Text.ofInt, Text.ofNat, hds]
    change signed (.ofChar '-' :: ofChars (ds.map Nat.digitChar)) (natural? 10) = _
    rw [hsigned, hread]
    rfl

lemma digitsFrom_lt {base number n : Nat} {continued : Bool} {t : Text}
    (h : digitsFrom base number continued t = some n) :
    n < (number + 1) * base ^ t.countP (· != .ofChar '_') := by
  induction t generalizing number continued with
  | nil =>
    rw [digitsFrom] at h
    split at h
    case isTrue =>
      cases h
      simp
    case isFalse => cases h
  | cons c t ih =>
    rw [digitsFrom] at h
    split at h
    case isTrue hc =>
      split at h
      case isTrue => simpa [hc] using ih h
      case isFalse => cases h
    case isFalse hc =>
      split at h
      case h_1 => cases h
      case h_2 d _ =>
        split at h
        case isTrue hd =>
          have hn := ih h
          have hnumber : number * base + d + 1 ≤ (number + 1) * base := by
            rw [Nat.add_mul]
            omega
          rw [List.countP_cons_of_pos (by simpa using hc), Nat.pow_succ', ← Nat.mul_assoc]
          exact Nat.lt_of_lt_of_le hn (Nat.mul_le_mul_right _ hnumber)
        case isFalse => cases h

lemma lt_of_natural? {t : Text} {n : Nat} (h : natural? 10 t = some n) : n < 10 ^ mostDigits := by
  rw [natural?] at h
  split at h
  case isTrue => cases h
  case isFalse hcount =>
    have hle : t.countP (· != .ofChar '_') ≤ mostDigits := by simpa using hcount
    have hn := digitsFrom_lt h
    rw [Nat.zero_add, Nat.one_mul] at hn
    exact Nat.lt_of_lt_of_le hn (Nat.pow_le_pow_right (by decide) hle)

lemma natAbs_of_signed {t : Text} {read : Text → Option Nat} {n : Int}
    (h : signed t read = some n) : ∃ magnitude, read magnitude = some n.natAbs := by
  rw [signed] at h
  generalize splitSign (stripBy isNumeralBlank t) = split at h
  obtain ⟨negative, magnitude⟩ := split
  refine ⟨magnitude, ?_⟩
  dsimp only at h
  cases hm : read magnitude with
  | none =>
    rw [hm] at h
    cases h
  | some m =>
    rw [hm] at h
    cases h
    cases negative <;> simp

lemma isWritable_of_integer? {t : Text} {n : Int} (h : integer? t = some n) :
    isWritable n = true := by
  obtain ⟨magnitude, hread⟩ := natAbs_of_signed h
  exact (isWritable_iff n).mpr (lt_of_natural? hread)

end ChainReplay.Numeral
