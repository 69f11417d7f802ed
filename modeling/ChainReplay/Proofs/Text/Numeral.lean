import Mathlib.Tactic.Lemma
import ChainReplay.Text.Numeral

/-! Hexadecimal numerals read back as the numbers that they were written for. -/

namespace ChainReplay

namespace Text

lemma ofChars_cons (c : Char) (cs : List Char) :
    ofChars (c :: cs) = CodePoint.ofChar c :: ofChars cs := rfl

lemma ofChars_append (cs ds : List Char) : ofChars (cs ++ ds) = ofChars cs ++ ofChars ds :=
  List.map_append

def numberOf (base number : Nat) (ds : List Nat) : Nat :=
  ds.foldl (fun n d => n * base + d) number

lemma numberOf_append (base number : Nat) (ds es : List Nat) :
    numberOf base number (ds ++ es) = numberOf base (numberOf base number ds) es :=
  List.foldl_append

lemma numberOf_zeros (base k : Nat) : numberOf base 0 (List.replicate k 0) = 0 := by
  induction k with
  | zero => rfl
  | succ k ih => simpa [numberOf, List.replicate_succ] using ih

lemma toDigits_eq {base : Nat} (hb : 1 < base) (n : Nat) :
    ∃ ds, Nat.toDigits base n = ds.map Nat.digitChar ∧ (∀ d ∈ ds, d < base) ∧ ds ≠ [] ∧
      numberOf base 0 ds = n := by
  induction n using Nat.strongRecOn with
  | ind n ih =>
    rcases Nat.lt_or_ge n base with hn | hn
    · refine ⟨[n], Nat.toDigits_of_lt_base hn, by simpa using hn, by simp, ?_⟩
      simp [numberOf]
    · obtain ⟨ds, hds, hlt, hne, hvalue⟩ := ih (n / base) (Nat.div_lt_self (by omega) hb)
      have hmod : n % base < base := Nat.mod_lt n (by omega)
      refine ⟨ds ++ [n % base], ?_, ?_, by simp, ?_⟩
      · rw [Nat.toDigits_of_base_le hb hn, hds, List.map_append]
        rfl
      · intro d hd
        rcases List.mem_append.mp hd with hd | hd
        · exact hlt d hd
        · exact List.mem_singleton.mp hd ▸ hmod
      · rw [numberOf_append, hvalue]
        exact Nat.div_add_mod' n base

lemma padded_eq {base : Nat} (hb : 1 < base) (width n : Nat) :
    ∃ ds, padded base width n = ofChars (ds.map Nat.digitChar) ∧ (∀ d ∈ ds, d < base) ∧
      ds ≠ [] ∧ numberOf base 0 ds = n := by
  obtain ⟨ds, hds, hlt, hne, hvalue⟩ := toDigits_eq hb n
  refine ⟨List.replicate (width - (Nat.toDigits base n).length) 0 ++ ds, ?_, ?_, by simp [hne], ?_⟩
  · simp only [padded, hds, List.map_append, List.map_replicate]
    rfl
  · intro d hd
    rcases List.mem_append.mp hd with hd | hd
    · rw [List.eq_of_mem_replicate hd]
      omega
    · exact hlt d hd
  · rw [numberOf_append, numberOf_zeros, hvalue]

end Text

namespace Numeral

open Text

lemma digitValue?_digitChar {d : Nat} (hd : d < 16) :
    digitValue? (.ofChar (Nat.digitChar d)) = some d := by
  revert d
  decide

lemma digitChar_ne {d : Nat} (hd : d < 16) :
    CodePoint.ofChar (Nat.digitChar d) ≠ .ofChar '_' ∧
      CodePoint.ofChar (Nat.digitChar d) ≠ .ofChar '-' ∧
      CodePoint.ofChar (Nat.digitChar d) ≠ .ofChar '+' ∧
      CodePoint.ofChar (Nat.digitChar d) ≠ .ofChar 'x' ∧
      CodePoint.ofChar (Nat.digitChar d) ≠ .ofChar 'X' ∧
      isNumeralBlank (.ofChar (Nat.digitChar d)) = false := by
  revert d
  decide

lemma digitsFrom_digits {base : Nat} (hb : base ≤ 16) {ds : List Nat} (hlt : ∀ d ∈ ds, d < base)
    (number : Nat) (continued : Bool) (hne : ds = [] → continued = true) :
    digitsFrom base number continued (ofChars (ds.map Nat.digitChar)) =
      some (numberOf base number ds) := by
  induction ds generalizing number continued with
  | nil =>
    rw [hne rfl]
    rfl
  | cons d ds ih =>
    have hd : d < base := hlt d List.mem_cons_self
    have hd16 : d < 16 := Nat.lt_of_lt_of_le hd hb
    rw [List.map_cons, ofChars_cons, digitsFrom, if_neg (digitChar_ne hd16).1,
      digitValue?_digitChar hd16]
    simp only [if_pos hd]
    exact ih (fun e he => hlt e (List.mem_cons_of_mem d he)) _ true fun _ => rfl

lemma stripBy_of_forall {p : CodePoint → Bool} {t : Text} (h : ∀ c ∈ t, p c = false) :
    stripBy p t = t := by
  have hdrop (t : Text) (h : ∀ c ∈ t, p c = false) : t.dropWhile p = t := by
    cases t with
    | nil => rfl
    | cons c t => rw [List.dropWhile_cons, h c List.mem_cons_self]; rfl
  rw [stripBy]
  rw [hdrop t h, hdrop t.reverse fun c hc => h c (List.mem_reverse.mp hc), List.reverse_reverse]

lemma splitMark_digits {ds : List Nat} (hlt : ∀ d ∈ ds, d < 16) :
    splitMark 'x' (ofChars (ds.map Nat.digitChar)) = none := by
  match ds with
  | [] => rfl
  | [d] => rfl
  | d :: e :: ds =>
    obtain ⟨_, _, _, hx, hX, _⟩ := digitChar_ne (hlt e (by simp))
    simp only [List.map_cons, ofChars_cons, splitMark]
    rw [if_neg]
    simp only [Bool.and_eq_true, Bool.or_eq_true, decide_eq_true_eq, not_and, not_or]
    exact fun _ => ⟨hx, hX⟩

lemma signed_digits {ds : List Nat} (hlt : ∀ d ∈ ds, d < 16) (hne : ds ≠ [])
    (read : Text → Option Nat) :
    signed (ofChars (ds.map Nat.digitChar)) read =
      (read (ofChars (ds.map Nat.digitChar))).map fun (n : Nat) => (n : Int) := by
  have hstrip : stripBy isNumeralBlank (ofChars (ds.map Nat.digitChar)) =
      ofChars (ds.map Nat.digitChar) := by
    refine stripBy_of_forall fun c hc => ?_
    simp only [ofChars, List.map_map, List.mem_map] at hc
    obtain ⟨d, hd, rfl⟩ := hc
    exact (digitChar_ne (hlt d hd)).2.2.2.2.2
  obtain ⟨d, es, rfl⟩ := List.exists_cons_of_ne_nil hne
  obtain ⟨_, hminus, hplus, _⟩ := digitChar_ne (hlt d List.mem_cons_self)
  rw [signed]
  rw [hstrip]
  simp only [List.map_cons, ofChars_cons, splitSign, if_neg hminus, if_neg hplus]
  cases read (.ofChar d.digitChar :: ofChars (es.map Nat.digitChar)) <;> rfl

theorem hexadecimal?_hexadecimal (width n : Nat) :
    hexadecimal? (hexadecimal width (n : Int)) = some (n : Int) := by
  obtain ⟨ds, hds, hlt, hne, hvalue⟩ := padded_eq (by decide : 1 < 16) width n
  have hread : natural? 16 (ofChars (ds.map Nat.digitChar)) = some n := by
    rw [natural?, if_neg (by simp), digitsFrom_digits (Nat.le_refl 16) hlt 0 false (absurd · hne),
      hvalue]
  change hexadecimal? (padded 16 width n) = _
  rw [hds, hexadecimal?, signed_digits hlt hne, splitMark_digits hlt]
  simp only [Option.getD_none, hread, Option.map_some]

end Numeral

end ChainReplay
