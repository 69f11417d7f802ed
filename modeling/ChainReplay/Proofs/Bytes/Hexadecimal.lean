import Mathlib.Data.List.Forall2
import Mathlib.Tactic.Lemma
import ChainReplay.Bytes.Basic

/-! Hexadecimal text: which characters stand for which bytes. Blanks may stand around the two digits
of a byte, but not between them. -/

namespace ChainReplay.Bytes

inductive HexForm : List Char → Bytes → Prop
  | nil : HexForm [] []
  | blank {c : Char} {cs : List Char} {bs : Bytes} :
      isAsciiBlank c = true → HexForm cs bs → HexForm (c :: cs) bs
  | byte {c d : Char} {high low : Nat} {cs : List Char} {bs : Bytes} :
      hexValue? c = some high → hexValue? d = some low → HexForm cs bs →
        HexForm (c :: d :: cs) (UInt8.ofNat (high * 16 + low) :: bs)

lemma hexValue?_of_blank {c : Char} (h : isAsciiBlank c = true) : hexValue? c = none := by
  simp only [isAsciiBlank, Bool.or_eq_true, Bool.and_eq_true, decide_eq_true_eq, Char.le_def,
    UInt32.le_iff_toNat_le] at h
  have hlow : c.val.toNat < 48 := by
    obtain rfl | ⟨-, h⟩ := h
    · decide
    · exact Nat.lt_of_le_of_lt h (by decide)
  have hout (d e : Char) (hd : 48 ≤ d.val.toNat) : (decide (d ≤ c) && decide (c ≤ e)) = false := by
    have hle : ¬d ≤ c := by
      rw [Char.le_def, UInt32.le_iff_toNat_le]
      omega
    rw [decide_eq_false hle, Bool.false_and]
  rw [hexValue?, hout _ _ (by decide), hout _ _ (by decide), hout _ _ (by decide)]
  rfl

/-- Text is read as the bytes whose digits it consists of, apart from blanks. -/
theorem ofHex?_eq_some_iff (cs : List Char) (bs : Bytes) :
    ofHex? cs = some bs ↔ HexForm cs bs := by
  constructor
  · intro h
    induction cs using ofHex?.induct generalizing bs with
    | case1 =>
      cases h
      exact .nil
    | case2 c hblank =>
      rw [ofHex?, if_pos hblank] at h
      cases h
      exact .blank hblank .nil
    | case3 c hblank =>
      rw [ofHex?, if_neg hblank] at h
      cases h
    | case4 c d rest hblank ih =>
      rw [ofHex?, if_pos hblank] at h
      exact .blank hblank (ih bs h)
    | case5 c d rest hblank ih =>
      rw [ofHex?, if_neg hblank] at h
      simp only [Option.bind_eq_bind, Option.bind_eq_some_iff, Option.pure_def,
        Option.some.injEq] at h
      obtain ⟨high, hhigh, low, hlow, tail, htail, rfl⟩ := h
      exact .byte hhigh hlow (ih tail htail)
  · intro h
    induction h with
    | nil => rfl
    | @blank c cs bs hblank _ ih =>
      cases cs with
      | nil => rwa [ofHex?, if_pos hblank]
      | cons d rest => rwa [ofHex?, if_pos hblank]
    | @byte c d high low cs bs hhigh hlow _ ih =>
      have hblank : ¬isAsciiBlank c = true := by
        intro hblank
        rw [hexValue?_of_blank hblank] at hhigh
        cases hhigh
      rw [ofHex?, if_neg hblank, hhigh, hlow, ih]
      rfl

lemma HexForm.forall {cs : List Char} {bs : Bytes} (h : HexForm cs bs) :
    ∀ c ∈ cs, isAsciiBlank c = true ∨ (hexValue? c).isSome = true := by
  induction h with
  | nil => exact nofun
  | blank hc _ ih => exact List.forall_mem_cons.mpr ⟨.inl hc, ih⟩
  | byte hc hd _ ih =>
    refine List.forall_mem_cons.mpr ⟨.inr ?_, List.forall_mem_cons.mpr ⟨.inr ?_, ih⟩⟩
    · rw [hc]
      rfl
    · rw [hd]
      rfl

/-- A digit, or the same digit as a capital letter. -/
def SameDigit (c d : Char) : Prop := c = d ∨ c = d.toUpper

lemma hexValue?_of_sameDigit {n : Nat} (h : n < 16) {c : Char} (hc : SameDigit c (hexDigit n)) :
    hexValue? c = some n := by
  rcases hc with rfl | rfl
  · revert n
    decide
  · revert n
    decide

lemma length_hexChars (bs : Bytes) : bs.hexChars.length = 2 * bs.length := by
  induction bs with
  | nil => rfl
  | cons b bs ih =>
    rw [hexChars, List.flatMap_cons, List.length_append, ← hexChars, ih, List.length_cons]
    simp only [List.length_cons, List.length_nil]
    omega

lemma hexForm_of_sameDigits {cs : List Char} {bs : Bytes}
    (h : List.Forall₂ SameDigit cs bs.hexChars) : HexForm cs bs := by
  induction bs generalizing cs with
  | nil =>
    cases h
    exact .nil
  | cons b bs ih =>
    have hb := b.toNat_lt
    rw [hexChars, List.flatMap_cons] at h
    cases h with
    | cons hc h =>
      cases h with
      | cons hd h =>
        have hbyte := HexForm.byte (hexValue?_of_sameDigit (by omega) hc)
          (hexValue?_of_sameDigit (by omega) hd) (ih h)
        rwa [Nat.div_add_mod', UInt8.ofNat_toNat] at hbyte

lemma exists_of_sameDigits {cs : List Char} {bs : Bytes}
    (h : List.Forall₂ SameDigit cs bs.hexChars) :
    ∀ c ∈ cs, ∃ n < 16, SameDigit c (hexDigit n) := by
  induction bs generalizing cs with
  | nil =>
    cases h
    exact nofun
  | cons b bs ih =>
    have hb := b.toNat_lt
    rw [hexChars, List.flatMap_cons] at h
    cases h with
    | cons hc h =>
      cases h with
      | cons hd h =>
        exact List.forall_mem_cons.mpr ⟨⟨_, by omega, hc⟩,
          List.forall_mem_cons.mpr ⟨⟨_, by omega, hd⟩, ih h⟩⟩

end ChainReplay.Bytes
