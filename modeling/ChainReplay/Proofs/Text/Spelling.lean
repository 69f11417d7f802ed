import Mathlib.Data.List.Induction
import ChainReplay.Proofs.Text.Numeral

/-! Which texts are numerals, and for which numbers. Single low lines may stand between digits, one
sign in front, and blanks around the whole. -/

namespace ChainReplay.Numeral

open Text

inductive Digits (base : Nat) : Text → Nat → Prop
  | one {c : CodePoint} {d : Nat} (hc : digitValue? c = some d) (hd : d < base) :
    Digits base [c] d
  | next {t : Text} {n : Nat} {c : CodePoint} {d : Nat} (h : Digits base t n)
    (hc : digitValue? c = some d) (hd : d < base) : Digits base (t ++ [c]) (n * base + d)
  | group {t : Text} {n : Nat} {c : CodePoint} {d : Nat} (h : Digits base t n)
    (hc : digitValue? c = some d) (hd : d < base) :
    Digits base (t ++ [.ofChar '_', c]) (n * base + d)

/-- A sign or none in front of a magnitude, with blanks around them. -/
inductive Signed (magnitude : Text → Nat → Prop) : Text → Int → Prop
  | plain {a m b : Text} {n : Nat} (ha : ∀ c ∈ a, isNumeralBlank c = true)
    (hb : ∀ c ∈ b, isNumeralBlank c = true) (hm : magnitude m n) : Signed magnitude (a ++ m ++ b) n
  | plus {a m b : Text} {n : Nat} (ha : ∀ c ∈ a, isNumeralBlank c = true)
    (hb : ∀ c ∈ b, isNumeralBlank c = true) (hm : magnitude m n) :
    Signed magnitude (a ++ (.ofChar '+' :: m) ++ b) n
  | minus {a m b : Text} {n : Nat} (ha : ∀ c ∈ a, isNumeralBlank c = true)
    (hb : ∀ c ∈ b, isNumeralBlank c = true) (hm : magnitude m n) :
    Signed magnitude (a ++ (.ofChar '-' :: m) ++ b) (-n)

def Decimal (m : Text) (n : Nat) : Prop :=
  Digits 10 m n ∧ m.countP (· != .ofChar '_') ≤ mostDigits

/-- Digits in base sixteen, of any number, with or without the mark of the base. -/
inductive Hexadecimal : Text → Nat → Prop
  | bare {m : Text} {n : Nat} (h : Digits 16 m n) : Hexadecimal m n
  | marked {z x : CodePoint} {m : Text} {n : Nat} (hz : digitValue? z = some 0)
    (hx : x = .ofChar 'x' ∨ x = .ofChar 'X') (h : Digits 16 m n) : Hexadecimal (z :: x :: m) n
  | markedGroup {z x : CodePoint} {m : Text} {n : Nat} (hz : digitValue? z = some 0)
    (hx : x = .ofChar 'x' ∨ x = .ofChar 'X') (h : Digits 16 m n) :
    Hexadecimal (z :: x :: .ofChar '_' :: m) n

section Digits

variable {base number n d : Nat} {continued : Bool} {c : CodePoint} {p t : Text}

lemma ne_line_of_digitValue? (hc : digitValue? c = some d) : c ≠ .ofChar '_' := by
  rintro rfl
  have hnone : digitValue? (.ofChar '_') = none := by decide
  cases hnone.symm.trans hc

lemma digitsFrom_digit (hc : digitValue? c = some d) (hd : d < base) (number : Nat)
    (continued : Bool) (rest : Text) :
    digitsFrom base number continued (c :: rest) = digitsFrom base (number * base + d) true rest := by
  rw [digitsFrom, if_neg (ne_line_of_digitValue? hc), hc]
  simp only [if_pos hd]

lemma Digits.digitsFrom_append (h : Digits base t n) (rest : Text) :
    digitsFrom base 0 false (t ++ rest) = digitsFrom base n true rest := by
  induction h generalizing rest with
  | one hc hd => rw [List.singleton_append, digitsFrom_digit hc hd, Nat.zero_mul, Nat.zero_add]
  | next h hc hd ih =>
    rw [List.append_assoc, ih, List.singleton_append, digitsFrom_digit hc hd]
  | group h hc hd ih =>
    rw [List.append_assoc, ih, List.cons_append, digitsFrom, if_pos rfl, if_pos rfl,
      List.singleton_append, digitsFrom_digit hc hd]

/-- What has been read of a numeral when the number so far is known. -/
inductive Begun (base : Nat) : Bool → Text → Nat → Prop
  | nothing : Begun base false [] 0
  | digits {t : Text} {n : Nat} (h : Digits base t n) : Begun base true t n
  | line {t : Text} {n : Nat} (h : Digits base t n) : Begun base false (t ++ [.ofChar '_']) n

lemma Begun.digit (h : Begun base continued p number) (hc : digitValue? c = some d)
    (hd : d < base) : Digits base (p ++ [c]) (number * base + d) := by
  cases h with
  | nothing =>
    rw [List.nil_append, Nat.zero_mul, Nat.zero_add]
    exact .one hc hd
  | digits h => exact .next h hc hd
  | line h =>
    rw [List.append_assoc]
    exact .group h hc hd

lemma Begun.digits_of_digitsFrom (h : Begun base continued p number)
    (ht : digitsFrom base number continued t = some n) : Digits base (p ++ t) n := by
  -- `Digits` grows at its end and the reader goes on from the front, so `p` is left free.
  induction t generalizing p number continued with
  | nil =>
    rw [digitsFrom] at ht
    cases h with
    | nothing | line => cases ht
    | digits h =>
      cases ht
      rw [List.append_nil]
      exact h
  | cons c t ih =>
    rw [List.append_cons]
    rw [digitsFrom] at ht
    split at ht
    case isTrue hline =>
      subst hline
      cases h with
      | nothing | line => cases ht
      | digits h => exact ih (.line h) ht
    case isFalse =>
      split at ht
      case h_1 => cases ht
      case h_2 d hc =>
        split at ht
        case isTrue hd => exact ih (.digits (h.digit hc hd)) ht
        case isFalse => cases ht

lemma digitsFrom_eq_some_iff : digitsFrom base 0 false t = some n ↔ Digits base t n := by
  refine ⟨Begun.digits_of_digitsFrom .nothing, fun h => ?_⟩
  have hread := h.digitsFrom_append []
  rw [List.append_nil] at hread
  exact hread

lemma Digits.ne_nil (h : Digits base t n) : t ≠ [] := by
  cases h <;> simp

lemma Digits.mem (h : Digits base t n) (hc : c ∈ t) :
    c = .ofChar '_' ∨ ∃ d < base, digitValue? c = some d := by
  induction h with
  | one hc' hd =>
    obtain rfl := List.mem_singleton.mp hc
    exact .inr ⟨_, hd, hc'⟩
  | next h hc' hd ih =>
    rcases List.mem_append.mp hc with hc | hc
    · exact ih hc
    · obtain rfl := List.mem_singleton.mp hc
      exact .inr ⟨_, hd, hc'⟩
  | group h hc' hd ih =>
    rcases List.mem_append.mp hc with hc | hc
    · exact ih hc
    · rcases List.mem_cons.mp hc with hline | hc
      · exact .inl hline
      · obtain rfl := List.mem_singleton.mp hc
        exact .inr ⟨_, hd, hc'⟩

lemma exists_digits (hne : t ≠ []) (h : ∀ c ∈ t, ∃ d < base, digitValue? c = some d) :
    ∃ n < base ^ t.length, Digits base t n := by
  induction t using List.reverseRecOn with
  | nil => exact absurd rfl hne
  | append_singleton t c ih =>
    obtain ⟨d, hd, hc⟩ := h c (by simp)
    by_cases ht : t = []
    · subst ht
      exact ⟨d, by simpa using hd, .one hc hd⟩
    · obtain ⟨n, hn, hdigits⟩ := ih ht fun c' hc' => h c' (List.mem_append_left [c] hc')
      refine ⟨n * base + d, ?_, .next hdigits hc hd⟩
      calc n * base + d < n * base + base := Nat.add_lt_add_left hd _
        _ = (n + 1) * base := by rw [Nat.add_mul, Nat.one_mul]
        _ ≤ base ^ t.length * base := Nat.mul_le_mul_right base hn
        _ = base ^ (t ++ [c]).length := by
          rw [List.length_append, List.length_singleton, Nat.pow_succ]

lemma Digits.head (h : Digits base t n) :
    ∃ c rest d, t = c :: rest ∧ digitValue? c = some d ∧ d < base := by
  induction h with
  | one hc hd => exact ⟨_, [], _, rfl, hc, hd⟩
  | next h hc hd ih =>
    obtain ⟨c, rest, d, rfl, hfirst⟩ := ih
    exact ⟨c, _, d, rfl, hfirst⟩
  | group h hc hd ih =>
    obtain ⟨c, rest, d, rfl, hfirst⟩ := ih
    exact ⟨c, _, d, rfl, hfirst⟩

end Digits

section Signed

variable {t m : Text} {n : Nat} {magnitude : Text → Nat → Prop}

/-- Neither a blank nor a sign can be taken for a part of it. -/
def Solid (m : Text) : Prop :=
  m ≠ [] ∧ ∀ c ∈ m, isNumeralBlank c = false ∧ c ≠ .ofChar '+' ∧ c ≠ .ofChar '-'

lemma dropWhile_append_of_solid {p : CodePoint → Bool} {a m : Text} (ha : ∀ c ∈ a, p c = true)
    (hne : m ≠ []) (hm : ∀ c ∈ m, p c = false) (b : Text) :
    (a ++ (m ++ b)).dropWhile p = m ++ b := by
  obtain ⟨c, rest, rfl⟩ := List.exists_cons_of_ne_nil hne
  rw [List.dropWhile_append_of_pos ha, List.cons_append,
    List.dropWhile_cons_of_neg (by simp [hm c List.mem_cons_self])]

lemma stripBy_append {p : CodePoint → Bool} {a m b : Text} (ha : ∀ c ∈ a, p c = true)
    (hb : ∀ c ∈ b, p c = true) (hne : m ≠ []) (hm : ∀ c ∈ m, p c = false) :
    stripBy p (a ++ m ++ b) = m := by
  have hback : (b.reverse ++ (m.reverse ++ [])).dropWhile p = m.reverse ++ [] :=
    dropWhile_append_of_solid (fun c hc => hb c (List.mem_reverse.mp hc))
      (mt List.reverse_eq_nil_iff.mp hne) (fun c hc => hm c (List.mem_reverse.mp hc)) []
  rw [List.append_nil] at hback
  rw [stripBy]
  rw [List.append_assoc, dropWhile_append_of_solid ha hne hm, List.reverse_append, hback,
    List.reverse_reverse]

lemma exists_stripBy (p : CodePoint → Bool) (t : Text) :
    ∃ a b, t = a ++ stripBy p t ++ b ∧ (∀ c ∈ a, p c = true) ∧ ∀ c ∈ b, p c = true := by
  have hall (t : Text) : ∀ c ∈ t.takeWhile p, p c = true :=
    List.all_eq_true.mp List.all_takeWhile
  generalize hrest : (t.dropWhile p).reverse = rest
  refine ⟨t.takeWhile p, (rest.takeWhile p).reverse, ?_, hall t,
    fun c hc => hall rest c (List.mem_reverse.mp hc)⟩
  rw [stripBy]
  rw [hrest, List.append_assoc, ← List.reverse_append, List.takeWhile_append_dropWhile, ← hrest,
    List.reverse_reverse, List.takeWhile_append_dropWhile]

lemma splitSign_eq (t : Text) :
    (∃ m, t = .ofChar '-' :: m ∧ splitSign t = (true, m)) ∨
      (∃ m, t = .ofChar '+' :: m ∧ splitSign t = (false, m)) ∨ splitSign t = (false, t) := by
  cases t with
  | nil => exact .inr (.inr rfl)
  | cons c m =>
    rw [splitSign]
    split
    case isTrue hc => exact .inl ⟨m, by rw [hc], rfl⟩
    case isFalse =>
      split
      case isTrue hc => exact .inr (.inl ⟨m, by rw [hc], rfl⟩)
      case isFalse => exact .inr (.inr rfl)

lemma splitSign_of_solid (hm : Solid m) : splitSign m = (false, m) := by
  obtain ⟨c, rest, rfl⟩ := List.exists_cons_of_ne_nil hm.1
  obtain ⟨-, hplus, hminus⟩ := hm.2 c List.mem_cons_self
  rw [splitSign, if_neg hminus, if_neg hplus]

lemma signed_append {a b s : Text} {read : Text → Option Nat} {negative : Bool}
    (ha : ∀ c ∈ a, isNumeralBlank c = true) (hb : ∀ c ∈ b, isNumeralBlank c = true)
    (hs : Solid s ∨ ∃ c, s = c :: m ∧ isNumeralBlank c = false ∧ Solid m)
    (hsplit : splitSign s = (negative, m)) (hread : read m = some n) :
    signed (a ++ s ++ b) read = some (if negative then -(n : Int) else n) := by
  have hsolid : s ≠ [] ∧ ∀ c ∈ s, isNumeralBlank c = false := by
    rcases hs with hs | ⟨c, rfl, hc, hm⟩
    · exact ⟨hs.1, fun c hc => (hs.2 c hc).1⟩
    · refine ⟨List.cons_ne_nil c m, fun c' hc' => ?_⟩
      rcases List.mem_cons.mp hc' with rfl | hc'
      · exact hc
      · exact (hm.2 c' hc').1
  rw [signed]
  rw [stripBy_append ha hb hsolid.1 hsolid.2, hsplit]
  dsimp only
  rw [hread]
  rfl

lemma signed_eq_some_iff {read : Text → Option Nat} {k : Int}
    (hread : ∀ m n, read m = some n ↔ magnitude m n) (hsolid : ∀ m n, magnitude m n → Solid m) :
    signed t read = some k ↔ Signed magnitude t k := by
  have hblank : isNumeralBlank (.ofChar '+') = false ∧ isNumeralBlank (.ofChar '-') = false := by
    decide
  constructor
  · intro h
    obtain ⟨a, b, ht, ha, hb⟩ := exists_stripBy isNumeralBlank t
    rw [signed] at h
    generalize stripBy isNumeralBlank t = s at h ht
    rcases hsplit : splitSign s with ⟨negative, m⟩
    rw [hsplit] at h
    dsimp only at h
    cases hn : read m with
    | none =>
      rw [hn] at h
      cases h
    | some n =>
      rw [hn] at h
      have hm := (hread m n).mp hn
      subst ht
      obtain ⟨m', rfl, hsign⟩ | ⟨m', rfl, hsign⟩ | hsign := splitSign_eq s
      all_goals
        cases hsplit.symm.trans hsign
        cases h
      · exact .minus ha hb hm
      · exact .plus ha hb hm
      · exact .plain ha hb hm
  · intro h
    cases h with
    | plain ha hb hm =>
      have hs := hsolid _ _ hm
      exact signed_append ha hb (.inl hs) (splitSign_of_solid hs) ((hread _ _).mpr hm)
    | plus ha hb hm =>
      exact signed_append ha hb (.inr ⟨_, rfl, hblank.1, hsolid _ _ hm⟩) rfl ((hread _ _).mpr hm)
    | minus ha hb hm =>
      exact signed_append ha hb (.inr ⟨_, rfl, hblank.2, hsolid _ _ hm⟩) rfl ((hread _ _).mpr hm)

end Signed

section Reading

variable {base n d : Nat} {c : CodePoint} {t m : Text}

lemma isNumeralBlank_of_digitValue? (hc : digitValue? c = some d) : isNumeralBlank c = false := by
  -- A digit is a letter or stands in a row of ten, and neither overlaps the ranges of blanks.
  have hapart : ∀ z ∈ decimalZeros, ∀ r ∈ blankRanges, r.2 < z ∨ z + 9 < r.1 := by decide
  have hletters : ∀ r ∈ blankRanges, r.2 < 65 ∨ 122 < r.1 := by decide
  have hnot : isBlank c = false := by
    rw [isBlank, CodePoint.within, List.any_eq_false]
    intro r hr
    simp only [Bool.and_eq_true, decide_eq_true_eq, not_and]
    intro hlow hhigh
    rw [digitValue?] at hc
    split at hc
    case isTrue hlower =>
      simp only [Bool.and_eq_true, decide_eq_true_eq] at hlower
      have := hletters r hr
      omega
    case isFalse =>
      split at hc
      case isTrue hupper =>
        simp only [Bool.and_eq_true, decide_eq_true_eq] at hupper
        have := hletters r hr
        omega
      case isFalse =>
        obtain ⟨z, hz, -⟩ := Option.map_eq_some_iff.mp hc
        have hrow := List.find?_some hz
        simp only [Bool.and_eq_true, decide_eq_true_eq] at hrow
        have := hapart z (List.mem_of_find?_eq_some hz) r hr
        omega
  rw [isNumeralBlank, hnot, Bool.false_and]

lemma solid_of_forall (hne : m ≠ [])
    (h : ∀ c ∈ m, c = .ofChar '_' ∨ ∃ d, digitValue? c = some d) : Solid m := by
  refine ⟨hne, fun c hc => ?_⟩
  rcases h c hc with rfl | ⟨d, hd⟩
  · decide
  · have hnone : digitValue? (.ofChar '+') = none ∧ digitValue? (.ofChar '-') = none := by decide
    refine ⟨isNumeralBlank_of_digitValue? hd, ?_, ?_⟩
    · rintro rfl
      cases hnone.1.symm.trans hd
    · rintro rfl
      cases hnone.2.symm.trans hd

lemma Digits.solid (h : Digits base m n) : Solid m := by
  refine solid_of_forall h.ne_nil fun c hc => (h.mem hc).imp_right ?_
  rintro ⟨d, -, hd⟩
  exact ⟨d, hd⟩

lemma exists_digitValue?_mark (hc : c = .ofChar 'x' ∨ c = .ofChar 'X') :
    digitValue? c = some 33 := by
  rcases hc with rfl | rfl <;> decide

lemma Hexadecimal.solid (h : Hexadecimal m n) : Solid m := by
  cases h with
  | bare h => exact h.solid
  | marked hz hx h =>
    refine solid_of_forall (by simp) ?_
    rw [List.forall_mem_cons, List.forall_mem_cons]
    refine ⟨.inr ⟨_, hz⟩, .inr ⟨_, exists_digitValue?_mark hx⟩, fun c hc => ?_⟩
    exact (h.mem hc).imp_right fun ⟨d, _, hd⟩ => ⟨d, hd⟩
  | markedGroup hz hx h =>
    refine solid_of_forall (by simp) ?_
    rw [List.forall_mem_cons, List.forall_mem_cons, List.forall_mem_cons]
    refine ⟨.inr ⟨_, hz⟩, .inr ⟨_, exists_digitValue?_mark hx⟩, .inl rfl, fun c hc => ?_⟩
    exact (h.mem hc).imp_right fun ⟨d, _, hd⟩ => ⟨d, hd⟩

lemma natural?_eq_some_iff :
    natural? base t = some n ↔
      Digits base t n ∧ (base = 10 → t.countP (· != .ofChar '_') ≤ mostDigits) := by
  rw [natural?, ← digitsFrom_eq_some_iff]
  split
  case isTrue hmany =>
    simp only [Bool.and_eq_true, decide_eq_true_eq] at hmany
    simp only [reduceCtorEq, false_iff, not_and]
    intro _ hfew
    have := hfew hmany.1
    omega
  case isFalse hfew =>
    simp only [Bool.and_eq_true, decide_eq_true_eq, not_and, Nat.not_lt] at hfew
    exact (and_iff_left hfew).symm

theorem integer?_eq_some_iff {k : Int} : integer? t = some k ↔ Signed Decimal t k := by
  rw [integer?]
  refine signed_eq_some_iff (fun m n => ?_) fun m n h => h.1.solid
  simp [natural?_eq_some_iff, Decimal]

lemma splitMark_eq (m : Text) :
    (∃ z x rest, m = z :: x :: rest ∧ digitValue? z = some 0 ∧ (x = .ofChar 'x' ∨ x = .ofChar 'X') ∧
      ((∃ inner, rest = .ofChar '_' :: inner ∧ splitMark 'x' m = some inner) ∨
        splitMark 'x' m = some rest)) ∨ splitMark 'x' m = none := by
  match m with
  | [] => exact .inr rfl
  | [z] => exact .inr rfl
  | z :: x :: rest =>
    simp only [splitMark]
    split
    case isFalse => exact .inr rfl
    case isTrue hmark =>
      simp only [Bool.and_eq_true, Bool.or_eq_true, decide_eq_true_eq] at hmark
      refine .inl ⟨z, x, rest, rfl, hmark.1, hmark.2, ?_⟩
      split
      case h_1 u inner =>
        split
        case isTrue hu => exact .inl ⟨inner, by rw [hu], rfl⟩
        case isFalse => exact .inr rfl
      case h_2 => exact .inr rfl

lemma splitMark_of_digits (h : Digits 16 m n) : splitMark 'x' m = none := by
  obtain ⟨z, x, rest, rfl, -, hx, -⟩ | hnone := splitMark_eq m
  · obtain hline | ⟨d, hd, hvalue⟩ := h.mem (c := x) (by simp)
    · rcases hx with rfl | rfl <;> exact absurd hline (by decide)
    · rw [exists_digitValue?_mark hx] at hvalue
      cases hvalue
      omega
  · exact hnone

lemma splitMark_marked {z x : CodePoint} {rest : Text} (hz : digitValue? z = some 0)
    (hx : x = .ofChar 'x' ∨ x = .ofChar 'X') :
    splitMark 'x' (z :: x :: rest) =
      match rest with
      | u :: inner => if u = .ofChar '_' then some inner else some rest
      | [] => some rest := by
  have hmark : (decide (digitValue? z = some 0) &&
      (decide (x = .ofChar 'x') || decide (x = .ofChar (Char.toUpper 'x')))) = true := by
    rw [Bool.and_eq_true, Bool.or_eq_true]
    exact ⟨decide_eq_true hz, hx.imp decide_eq_true decide_eq_true⟩
  simp only [splitMark, if_pos hmark]
  cases rest <;> rfl

lemma hexadecimal_iff :
    natural? 16 ((splitMark 'x' m).getD m) = some n ↔ Hexadecimal m n := by
  have hdigits (t : Text) : natural? 16 t = some n ↔ Digits 16 t n := by
    simp [natural?_eq_some_iff]
  rw [hdigits]
  constructor
  · intro h
    obtain ⟨z, x, rest, rfl, hz, hx, ⟨inner, rfl, hsplit⟩ | hsplit⟩ | hsplit := splitMark_eq m
    all_goals rw [hsplit] at h
    · exact .markedGroup hz hx h
    · exact .marked hz hx h
    · exact .bare h
  · intro h
    cases h with
    | bare h =>
      rw [splitMark_of_digits h]
      exact h
    | marked hz hx h =>
      obtain ⟨c, rest, d, rfl, hc, -⟩ := h.head
      rw [splitMark_marked hz hx]
      simp only [if_neg (ne_line_of_digitValue? hc)]
      exact h
    | markedGroup hz hx h =>
      rw [splitMark_marked hz hx]
      exact h

theorem hexadecimal?_eq_some_iff {k : Int} : hexadecimal? t = some k ↔ Signed Hexadecimal t k := by
  rw [hexadecimal?]
  exact signed_eq_some_iff (fun m n => hexadecimal_iff) fun m n h => h.solid

end Reading

end ChainReplay.Numeral
