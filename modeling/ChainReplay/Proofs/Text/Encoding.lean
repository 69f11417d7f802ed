import Mathlib.Tactic.Lemma
import ChainReplay.Text.Utf8

/-! Every text has at most one encoding, and every byte string is read as at most one text: a text
is read exactly from its encoding, and texts with surrogates have none. -/

namespace ChainReplay

lemma CodePoint.ofNat_of_val (c : CodePoint) {n : Nat} (h : n = c.val) : CodePoint.ofNat n = c := by
  subst h
  simp [ofNat, c.isLt]

lemma CodePoint.val_ofNat {n : Nat} (h : n < 0x110000) : (ofNat n).val = n := by
  simp [ofNat, h]

lemma CodePoint.isSurrogate_eq_false_iff (c : CodePoint) :
    c.isSurrogate = false ↔ c.val < 0xD800 ∨ 0xE000 ≤ c.val := by
  simp only [isSurrogate, Bool.and_eq_false_imp, decide_eq_true_eq, decide_eq_false_iff_not]
  omega

namespace Utf8

lemma tails_eq (b : UInt8) : tails b =
    if b.toNat < 0xC2 then none
    else if b.toNat < 0xE0 then some (1, 0x80, 0xBF)
    else if b.toNat < 0xF0 then
      some (2, if b.toNat = 0xE0 then 0xA0 else 0x80, if b.toNat = 0xED then 0x9F else 0xBF)
    else if b.toNat < 0xF5 then
      some (3, if b.toNat = 0xF0 then 0x90 else 0x80, if b.toNat = 0xF4 then 0x8F else 0xBF)
    else none := by
  have h : ∀ n < 256, tails (.ofNat n) =
      if n < 0xC2 then none
      else if n < 0xE0 then some (1, 0x80, 0xBF)
      else if n < 0xF0 then
        some (2, if n = 0xE0 then 0xA0 else 0x80, if n = 0xED then 0x9F else 0xBF)
      else if n < 0xF5 then
        some (3, if n = 0xF0 then 0x90 else 0x80, if n = 0xF4 then 0x8F else 0xBF)
      else none := by decide +kernel
  rw [← h b.toNat b.toNat_lt, UInt8.ofNat_toNat]

lemma not_lt_ascii {b : UInt8} (h : 0x80 ≤ b.toNat) : ¬b < 0x80 := by
  rw [UInt8.lt_iff_toNat_lt]
  exact Nat.not_lt.mpr h

lemma front_two {b x : UInt8} (hb : 0xC2 ≤ b.toNat ∧ b.toNat < 0xE0)
    (hx : 0x80 ≤ x.toNat ∧ x.toNat < 0xC0) (rest : Bytes) :
    front (b :: x :: rest) = .scalar (.ofNat (b.toNat % 32 * 64 + tailValue x)) 2 := by
  have htails : tails b = some (1, 0x80, 0xBF) := by
    rw [tails_eq, if_neg (by omega), if_pos hb.2]
  have hlead : ¬b < 0x80 := not_lt_ascii (by omega)
  have hrange : ¬(x < 0x80 ∨ 0xBF < x) := by
    rw [UInt8.lt_iff_toNat_lt, UInt8.lt_iff_toNat_lt]
    change ¬(x.toNat < 0x80 ∨ 0xBF < x.toNat)
    omega
  simp [front, hlead, htails, hrange]

lemma isTail_iff (b : UInt8) : isTail b = true ↔ 0x80 ≤ b.toNat ∧ b.toNat < 0xC0 := by
  simp only [isTail, Bool.and_eq_true, decide_eq_true_eq]
  rw [UInt8.le_iff_toNat_le, UInt8.lt_iff_toNat_lt]
  rfl

lemma front_three {b x y : UInt8} (hb : 0xE0 ≤ b.toNat ∧ b.toNat < 0xF0)
    (hlow : (if b.toNat = 0xE0 then 0xA0 else 0x80) ≤ x.toNat)
    (hhigh : x.toNat ≤ if b.toNat = 0xED then 0x9F else 0xBF)
    (hy : 0x80 ≤ y.toNat ∧ y.toNat < 0xC0) (rest : Bytes) :
    front (b :: x :: y :: rest) =
      .scalar (.ofNat (b.toNat % 16 * 4096 + tailValue x * 64 + tailValue y)) 3 := by
  have htails : tails b = some (2, if b.toNat = 0xE0 then 0xA0 else 0x80,
      if b.toNat = 0xED then 0x9F else 0xBF) := by
    rw [tails_eq, if_neg (by omega), if_neg (by omega), if_pos hb.2]
  have hlead : ¬b < 0x80 := not_lt_ascii (by omega)
  have hlow' : ¬x < if b.toNat = 0xE0 then 0xA0 else 0x80 := by
    rw [UInt8.lt_iff_toNat_lt, apply_ite UInt8.toNat]
    exact Nat.not_lt.mpr hlow
  have hhigh' : ¬(if b.toNat = 0xED then 0x9F else 0xBF) < x := by
    rw [UInt8.lt_iff_toNat_lt, apply_ite UInt8.toNat]
    exact Nat.not_lt.mpr hhigh
  simp [front, hlead, htails, hlow', hhigh', (isTail_iff y).mpr hy]

lemma front_four {b x y z : UInt8} (hb : 0xF0 ≤ b.toNat ∧ b.toNat < 0xF5)
    (hlow : (if b.toNat = 0xF0 then 0x90 else 0x80) ≤ x.toNat)
    (hhigh : x.toNat ≤ if b.toNat = 0xF4 then 0x8F else 0xBF)
    (hy : 0x80 ≤ y.toNat ∧ y.toNat < 0xC0) (hz : 0x80 ≤ z.toNat ∧ z.toNat < 0xC0) (rest : Bytes) :
    front (b :: x :: y :: z :: rest) =
      .scalar (.ofNat (b.toNat % 8 * 262144 + tailValue x * 4096 + tailValue y * 64
        + tailValue z)) 4 := by
  have htails : tails b = some (3, if b.toNat = 0xF0 then 0x90 else 0x80,
      if b.toNat = 0xF4 then 0x8F else 0xBF) := by
    rw [tails_eq, if_neg (by omega), if_neg (by omega), if_neg (by omega), if_pos hb.2]
  have hlead : ¬b < 0x80 := not_lt_ascii (by omega)
  have hlow' : ¬x < if b.toNat = 0xF0 then 0x90 else 0x80 := by
    rw [UInt8.lt_iff_toNat_lt, apply_ite UInt8.toNat]
    exact Nat.not_lt.mpr hlow
  have hhigh' : ¬(if b.toNat = 0xF4 then 0x8F else 0xBF) < x := by
    rw [UInt8.lt_iff_toNat_lt, apply_ite UInt8.toNat]
    exact Nat.not_lt.mpr hhigh
  simp [front, hlead, htails, hlow', hhigh', (isTail_iff y).mpr hy, (isTail_iff z).mpr hz]

lemma ofNat_toNat_of_lt {n : Nat} (h : n < 256) : (UInt8.ofNat n).toNat = n := by
  rw [UInt8.toNat_ofNat']
  omega

lemma front_encodeOne {c : CodePoint} (hc : c.isSurrogate = false) (rest : Bytes) :
    front (encodeOne c ++ rest) = .scalar c (encodeOne c).length := by
  have hlt := c.isLt
  have hplane : ¬(0xD800 ≤ c.val ∧ c.val < 0xE000) := by simpa [CodePoint.isSurrogate] using hc
  rw [encodeOne]
  by_cases h1 : c.val < 0x80
  · have hlead : UInt8.ofNat c.val < 0x80 := by
      rw [UInt8.lt_iff_toNat_lt, ofNat_toNat_of_lt (by omega)]
      exact h1
    simp only [if_pos h1]
    rw [List.cons_append, front, if_pos hlead, ofNat_toNat_of_lt (by omega), c.ofNat_of_val rfl]
    rfl
  by_cases h2 : c.val < 0x800
  · have hb : (UInt8.ofNat (0xC0 + c.val / 64)).toNat = 0xC0 + c.val / 64 :=
      ofNat_toNat_of_lt (by omega)
    have hx : (UInt8.ofNat (0x80 + c.val % 64)).toNat = 0x80 + c.val % 64 :=
      ofNat_toNat_of_lt (by omega)
    simp only [if_neg h1, if_pos h2, List.cons_append]
    rw [front_two (by omega) (by omega), tailValue, hb, hx, c.ofNat_of_val (by omega)]
    rfl
  by_cases h3 : c.val < 0x10000
  · have hb : (UInt8.ofNat (0xE0 + c.val / 4096)).toNat = 0xE0 + c.val / 4096 :=
      ofNat_toNat_of_lt (by omega)
    have hx : (UInt8.ofNat (0x80 + c.val / 64 % 64)).toNat = 0x80 + c.val / 64 % 64 :=
      ofNat_toNat_of_lt (by omega)
    have hy : (UInt8.ofNat (0x80 + c.val % 64)).toNat = 0x80 + c.val % 64 :=
      ofNat_toNat_of_lt (by omega)
    simp only [if_neg h1, if_neg h2, if_pos h3, List.cons_append]
    rw [front_three (by omega) (by split <;> omega) (by split <;> omega) (by omega)]
    simp only [tailValue, hb, hx, hy]
    rw [c.ofNat_of_val (by omega)]
    rfl
  · have hb : (UInt8.ofNat (0xF0 + c.val / 262144)).toNat = 0xF0 + c.val / 262144 :=
      ofNat_toNat_of_lt (by omega)
    have hx : (UInt8.ofNat (0x80 + c.val / 4096 % 64)).toNat = 0x80 + c.val / 4096 % 64 :=
      ofNat_toNat_of_lt (by omega)
    have hy : (UInt8.ofNat (0x80 + c.val / 64 % 64)).toNat = 0x80 + c.val / 64 % 64 :=
      ofNat_toNat_of_lt (by omega)
    have hz : (UInt8.ofNat (0x80 + c.val % 64)).toNat = 0x80 + c.val % 64 :=
      ofNat_toNat_of_lt (by omega)
    simp only [if_neg h1, if_neg h2, if_neg h3, List.cons_append]
    rw [front_four (by omega) (by split <;> omega) (by split <;> omega) (by omega) (by omega)]
    simp only [tailValue, hb, hx, hy, hz]
    rw [c.ofNat_of_val (by omega)]
    rfl

lemma ofNat_eq {n : Nat} {b : UInt8} (h : n = b.toNat) : UInt8.ofNat n = b := by
  rw [h, UInt8.ofNat_toNat]

/-- A code point that can stand in UTF-8, and the bytes for it. -/
def Encodes (c : CodePoint) (bs : Bytes) : Prop := c.isSurrogate = false ∧ encodeOne c = bs

lemma encodes_one {b : UInt8} (hb : b.toNat < 0x80) : Encodes (.ofNat b.toNat) [b] := by
  have hval : (CodePoint.ofNat b.toNat).val = b.toNat := CodePoint.val_ofNat (by omega)
  constructor
  · rw [CodePoint.isSurrogate_eq_false_iff, hval]
    omega
  · rw [encodeOne]
    simp only [hval, if_pos hb, UInt8.ofNat_toNat]

lemma encodes_two {b x : UInt8} (hb : 0xC2 ≤ b.toNat ∧ b.toNat < 0xE0)
    (hx : 0x80 ≤ x.toNat ∧ x.toNat < 0xC0) :
    Encodes (.ofNat (b.toNat % 32 * 64 + tailValue x)) [b, x] := by
  have hval : (CodePoint.ofNat (b.toNat % 32 * 64 + tailValue x)).val =
      b.toNat % 32 * 64 + x.toNat % 64 := CodePoint.val_ofNat (by rw [tailValue]; omega)
  constructor
  · rw [CodePoint.isSurrogate_eq_false_iff, hval]
    omega
  · rw [encodeOne]
    simp only [hval]
    rw [if_neg (by omega), if_pos (by omega), ofNat_eq (b := b) (by omega),
      ofNat_eq (b := x) (by omega)]

lemma encodes_three {b x y : UInt8} (hb : 0xE0 ≤ b.toNat ∧ b.toNat < 0xF0)
    (hlow : (if b.toNat = 0xE0 then 0xA0 else 0x80) ≤ x.toNat)
    (hhigh : x.toNat ≤ if b.toNat = 0xED then 0x9F else 0xBF)
    (hy : 0x80 ≤ y.toNat ∧ y.toNat < 0xC0) :
    Encodes (.ofNat (b.toNat % 16 * 4096 + tailValue x * 64 + tailValue y)) [b, x, y] := by
  have hval : (CodePoint.ofNat (b.toNat % 16 * 4096 + tailValue x * 64 + tailValue y)).val =
      b.toNat % 16 * 4096 + x.toNat % 64 * 64 + y.toNat % 64 :=
    CodePoint.val_ofNat (by simp only [tailValue]; omega)
  have hx : 0x80 ≤ x.toNat ∧ x.toNat < 0xC0 := by split at hlow <;> split at hhigh <;> omega
  -- The bounds on the second byte keep out what has a shorter encoding, and the surrogates.
  have hbound : 0x800 ≤ b.toNat % 16 * 4096 + x.toNat % 64 * 64 + y.toNat % 64 := by
    split at hlow <;> omega
  constructor
  · rw [CodePoint.isSurrogate_eq_false_iff, hval]
    split at hhigh <;> omega
  · rw [encodeOne]
    simp only [hval]
    rw [if_neg (by omega), if_neg (by omega), if_pos (by omega), ofNat_eq (b := b) (by omega),
      ofNat_eq (b := x) (by omega), ofNat_eq (b := y) (by omega)]

lemma encodes_four {b x y z : UInt8} (hb : 0xF0 ≤ b.toNat ∧ b.toNat < 0xF5)
    (hlow : (if b.toNat = 0xF0 then 0x90 else 0x80) ≤ x.toNat)
    (hhigh : x.toNat ≤ if b.toNat = 0xF4 then 0x8F else 0xBF)
    (hy : 0x80 ≤ y.toNat ∧ y.toNat < 0xC0) (hz : 0x80 ≤ z.toNat ∧ z.toNat < 0xC0) :
    Encodes (.ofNat (b.toNat % 8 * 262144 + tailValue x * 4096 + tailValue y * 64
      + tailValue z)) [b, x, y, z] := by
  have hx : 0x80 ≤ x.toNat ∧ x.toNat < 0xC0 := by split at hlow <;> split at hhigh <;> omega
  have hbound : 0x10000 ≤ b.toNat % 8 * 262144 + x.toNat % 64 * 4096 + y.toNat % 64 * 64
      + z.toNat % 64 ∧ b.toNat % 8 * 262144 + x.toNat % 64 * 4096 + y.toNat % 64 * 64
      + z.toNat % 64 < 0x110000 := by
    split at hlow <;> split at hhigh <;> omega
  have hval : (CodePoint.ofNat (b.toNat % 8 * 262144 + tailValue x * 4096 + tailValue y * 64
      + tailValue z)).val = b.toNat % 8 * 262144 + x.toNat % 64 * 4096 + y.toNat % 64 * 64
        + z.toNat % 64 := CodePoint.val_ofNat hbound.2
  constructor
  · rw [CodePoint.isSurrogate_eq_false_iff, hval]
    omega
  · rw [encodeOne]
    simp only [hval]
    rw [if_neg (by omega), if_neg (by omega), if_neg (by omega), ofNat_eq (b := b) (by omega),
      ofNat_eq (b := x) (by omega), ofNat_eq (b := y) (by omega), ofNat_eq (b := z) (by omega)]

lemma tails_eq_some {b low high : UInt8} {count : Nat} (h : tails b = some (count, low, high)) :
    (count = 1 ∧ (0xC2 ≤ b.toNat ∧ b.toNat < 0xE0) ∧ low.toNat = 0x80 ∧ high.toNat = 0xBF) ∨
    (count = 2 ∧ (0xE0 ≤ b.toNat ∧ b.toNat < 0xF0) ∧
      low.toNat = (if b.toNat = 0xE0 then 0xA0 else 0x80) ∧
      high.toNat = if b.toNat = 0xED then 0x9F else 0xBF) ∨
    (count = 3 ∧ (0xF0 ≤ b.toNat ∧ b.toNat < 0xF5) ∧
      low.toNat = (if b.toNat = 0xF0 then 0x90 else 0x80) ∧
      high.toNat = if b.toNat = 0xF4 then 0x8F else 0xBF) := by
  rw [tails_eq] at h
  split at h
  · cases h
  split at h
  · cases h
    exact .inl ⟨rfl, by omega, rfl, rfl⟩
  split at h
  · cases h
    exact .inr (.inl ⟨rfl, by omega, apply_ite UInt8.toNat _ _ _, apply_ite UInt8.toNat _ _ _⟩)
  split at h
  · cases h
    exact .inr (.inr ⟨rfl, by omega, apply_ite UInt8.toNat _ _ _, apply_ite UInt8.toNat _ _ _⟩)
  · cases h

lemma Encodes.of_front {c c' : CodePoint} {bs rest : Bytes} {width width' : Nat}
    (h : Encodes c bs) (hfront : Front.scalar c width = .scalar c' width')
    (hwidth : bs.length = width) :
    c'.isSurrogate = false ∧ bs ++ rest = encodeOne c' ++ (bs ++ rest).drop width' := by
  obtain ⟨rfl, rfl⟩ := Front.scalar.inj hfront
  rw [h.2, ← hwidth, List.drop_left]
  exact ⟨h.1, rfl⟩

/-- A code point at the front of a byte string is no surrogate, and the string begins with its
encoding. -/
lemma front_eq_scalar {bs : Bytes} {c : CodePoint} {width : Nat} (h : front bs = .scalar c width) :
    c.isSurrogate = false ∧ bs = encodeOne c ++ bs.drop width := by
  cases bs with
  | nil => cases h
  | cons b rest =>
    rw [front] at h
    split at h
    case isTrue hb =>
      rw [UInt8.lt_iff_toNat_lt] at hb
      exact (encodes_one hb).of_front h rfl
    case isFalse =>
      split at h
      case h_1 => cases h
      case h_2 count low high htails =>
      split at h
      case h_1 => cases h
      case h_2 x rest =>
      split at h
      case isTrue => cases h
      case isFalse hx =>
      simp only [Bool.or_eq_true, decide_eq_true_eq, UInt8.lt_iff_toNat_lt, not_or, Nat.not_lt] at hx
      obtain ⟨hlow, hhigh⟩ := hx
      -- The first byte tells how many follow; only the second one has bounds of its own.
      obtain ⟨rfl, hb, hl, hh⟩ | ⟨rfl, hb, hl, hh⟩ | ⟨rfl, hb, hl, hh⟩ := tails_eq_some htails
      · rw [if_pos rfl] at h
        exact (encodes_two hb (by omega)).of_front h rfl
      · rw [if_neg (by decide)] at h
        split at h
        case h_1 => cases h
        case h_2 y rest =>
        split at h
        case isTrue => cases h
        case isFalse hy =>
        rw [Bool.not_eq_true', Bool.not_eq_false, isTail_iff] at hy
        rw [if_pos rfl] at h
        exact (encodes_three hb (hl ▸ hlow) (hh ▸ hhigh) hy).of_front h rfl
      · rw [if_neg (by decide)] at h
        split at h
        case h_1 => cases h
        case h_2 y rest =>
        split at h
        case isTrue => cases h
        case isFalse hy =>
        rw [Bool.not_eq_true', Bool.not_eq_false, isTail_iff] at hy
        rw [if_neg (by decide)] at h
        split at h
        case h_1 => cases h
        case h_2 z rest =>
        split at h
        case isTrue => cases h
        case isFalse hz =>
        rw [Bool.not_eq_true', Bool.not_eq_false, isTail_iff] at hz
        exact (encodes_four hb (hl ▸ hlow) (hh ▸ hhigh) hy hz).of_front h rfl

lemma encodeFrom_of_forall {t : Text} (h : ∀ c ∈ t, c.isSurrogate = false) (start : Nat) :
    encodeFrom start t = .ok (t.flatMap encodeOne) := by
  induction t generalizing start with
  | nil => rfl
  | cons c t ih =>
    rw [List.forall_mem_cons] at h
    rw [encodeFrom, if_neg (by simp [h.1]), ih h.2]
    rfl

lemma encodeFrom_eq_ok {t : Text} {start : Nat} {bs : Bytes} (h : encodeFrom start t = .ok bs) :
    (∀ c ∈ t, c.isSurrogate = false) ∧ bs = t.flatMap encodeOne := by
  induction t generalizing start bs with
  | nil =>
    cases h
    exact ⟨fun _ h => absurd h List.not_mem_nil, rfl⟩
  | cons c t ih =>
    rw [encodeFrom] at h
    split at h
    case isTrue => cases h
    case isFalse hc =>
      cases hrest : encodeFrom (start + 1) t with
      | error part =>
        rw [hrest] at h
        cases h
      | ok rest =>
        rw [hrest] at h
        cases h
        obtain ⟨hall, rfl⟩ := ih hrest
        exact ⟨List.forall_mem_cons.mpr ⟨Bool.not_eq_true _ ▸ hc, hall⟩, rfl⟩

lemma encode_eq_ok_iff (t : Text) (bs : Bytes) :
    encode t = .ok bs ↔ (∀ c ∈ t, c.isSurrogate = false) ∧ bs = t.flatMap encodeOne := by
  refine ⟨encodeFrom_eq_ok, ?_⟩
  rintro ⟨h, rfl⟩
  exact encodeFrom_of_forall h 0

lemma length_encodeOne_pos (c : CodePoint) : 0 < (encodeOne c).length := by
  rw [encodeOne]
  split
  · exact Nat.one_pos
  split
  · exact Nat.two_pos
  split <;> exact Nat.succ_pos _

lemma decodeWithin_flatMap {t : Text} (h : ∀ c ∈ t, c.isSurrogate = false) {n : Nat}
    (hn : (t.flatMap encodeOne).length ≤ n) (start : Nat) :
    decodeWithin n start (t.flatMap encodeOne) = .ok t := by
  induction t generalizing n start with
  | nil => simp [decodeWithin]
  | cons c t ih =>
    rw [List.forall_mem_cons] at h
    rw [List.flatMap_cons, List.length_append] at hn
    have hpos := length_encodeOne_pos c
    obtain ⟨n, rfl⟩ : ∃ m, n = m + 1 := ⟨n - 1, by omega⟩
    have hne : encodeOne c ++ t.flatMap encodeOne ≠ [] := by
      intro hnil
      rw [List.append_eq_nil_iff] at hnil
      rw [hnil.1] at hpos
      cases hpos
    rw [List.flatMap_cons, decodeWithin, front_encodeOne h.1]
    · simp only [List.drop_left]
      rw [ih h.2 (by omega)]
      rfl
    · exact hne

lemma decodeWithin_eq_ok {n start : Nat} {bs : Bytes} {t : Text}
    (h : decodeWithin n start bs = .ok t) :
    (∀ c ∈ t, c.isSurrogate = false) ∧ bs = t.flatMap encodeOne := by
  induction n generalizing start bs t with
  | zero =>
    cases bs with
    | nil =>
      cases h
      exact ⟨fun _ h => absurd h List.not_mem_nil, rfl⟩
    | cons b bs => cases h
  | succ n ih =>
    cases bs with
    | nil =>
      cases h
      exact ⟨fun _ h => absurd h List.not_mem_nil, rfl⟩
    | cons b bs =>
      rw [decodeWithin] at h
      case x_3 => nofun
      split at h
      case h_1 c width hfront =>
        obtain ⟨hc, hbs⟩ := front_eq_scalar hfront
        cases hrest : decodeWithin n (start + width) ((b :: bs).drop width) with
        | error fault =>
          rw [hrest] at h
          cases h
        | ok rest =>
          rw [hrest] at h
          cases h
          obtain ⟨hall, hdrop⟩ := ih hrest
          exact ⟨List.forall_mem_cons.mpr ⟨hc, hall⟩, hbs.trans (congrArg _ hdrop)⟩
      case h_2 => cases h
      case h_3 => cases h

/-- Bytes are read as a text exactly if they are the encoding of that text. -/
theorem decode_eq_ok_iff (bs : Bytes) (t : Text) : decode bs = .ok t ↔ encode t = .ok bs := by
  rw [encode_eq_ok_iff]
  refine ⟨decodeWithin_eq_ok, ?_⟩
  rintro ⟨h, rfl⟩
  exact decodeWithin_flatMap h (Nat.le_refl _) 0

end Utf8
end ChainReplay
