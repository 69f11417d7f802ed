import Mathlib.Data.List.TakeWhile
import ChainReplay.Proofs.Json.Reading

/-! A text, a number or a constant is read from the front of a character sequence alone: it stays
what it is whatever follows, as long as a number is not continued. -/

namespace ChainReplay.Json

/-- No character with the property stands in front. -/
def Ends (p : Char → Bool) (cs : List Char) : Prop := ∀ c ∈ cs.head?, p c = false

lemma Ends.append {p : Char → Bool} {cs ds : List Char} (hcs : Ends p cs) (hds : Ends p ds) :
    Ends p (cs ++ ds) := by
  cases cs with
  | nil => exact hds
  | cons c cs => exact hcs

lemma Ends.imp {p q : Char → Bool} {cs : List Char} (h : Ends q cs)
    (hpq : ∀ c, p c = true → q c = true) : Ends p cs := by
  intro c hc
  have hq := h c hc
  cases hp : p c with
  | false => rfl
  | true => rw [hpq c hp] at hq; cases hq

lemma ends_dropWhile (p : Char → Bool) (cs : List Char) : Ends p (cs.dropWhile p) := by
  intro c hc
  have hhead := List.head?_dropWhile_not p cs
  rw [Option.mem_def.mp hc] at hhead
  simpa using hhead

lemma takeWhile_append_of_ends {p : Char → Bool} {used rest : List Char}
    (hused : ∀ c ∈ used, p c = true) (hrest : Ends p rest) :
    (used ++ rest).takeWhile p = used ∧ (used ++ rest).dropWhile p = rest := by
  have htake : rest.takeWhile p = [] := by
    cases rest with
    | nil => rfl
    | cons c cs => rw [List.takeWhile_cons_of_neg (by simpa using hrest c rfl)]
  have hdrop : rest.dropWhile p = rest := by
    cases rest with
    | nil => rfl
    | cons c cs => rw [List.dropWhile_cons_of_neg (by simpa using hrest c rfl)]
  rw [List.takeWhile_append_of_pos hused, List.dropWhile_append_of_pos hused, htake, hdrop,
    List.append_nil]
  exact ⟨rfl, rfl⟩

lemma skipSpace_append {cs : List Char} (h : skipSpace cs ≠ []) (ds : List Char) :
    skipSpace (cs ++ ds) = skipSpace cs ++ ds := by
  rw [skipSpace, List.dropWhile_append]
  rw [if_neg (by simpa [skipSpace] using h)]
  rfl

lemma exists_skipSpace (cs : List Char) :
    ∃ blanks, cs = blanks ++ skipSpace cs ∧ ∀ c ∈ blanks, isSpace c = true :=
  ⟨cs.takeWhile isSpace, (List.takeWhile_append_dropWhile ..).symm,
    fun c hc => List.all_eq_true.mp List.all_takeWhile c hc⟩

lemma skipSpace_eq_nil {cs : List Char} (h : skipSpace cs = []) (used : List Char) {rest : List Char}
    (hcs : cs = used ++ rest) : skipSpace rest = [] := by
  rw [skipSpace, List.dropWhile_eq_nil_iff] at h ⊢
  intro c hc
  exact h c (hcs ▸ List.mem_append_right used hc)

lemma skipSpace_blanks {blanks : List Char} (hblanks : ∀ c ∈ blanks, isSpace c = true)
    {cs : List Char} (hcs : Ends isSpace cs) : skipSpace (blanks ++ cs) = cs :=
  (takeWhile_append_of_ends hblanks hcs).2

lemma behind_local {c : Char} {cs rest : List Char} (h : behind c cs = some rest) :
    ∃ d used, cs = d :: used ++ rest ∧ (isSpace d = true ∨ d = c) ∧
      ∀ r, behind c (d :: used ++ r) = some r := by
  rw [behind_eq_some_iff] at h
  have hfront : Ends isSpace (c :: rest) := h ▸ ends_dropWhile isSpace cs
  obtain ⟨blanks, hcs, hblanks⟩ := exists_skipSpace cs
  rw [h] at hcs
  have hread : ∀ r, behind c (blanks ++ c :: r) = some r := fun r =>
    (behind_eq_some_iff ..).mpr (skipSpace_blanks hblanks hfront)
  cases blanks with
  | nil => exact ⟨c, [], hcs, Or.inr rfl, hread⟩
  | cons d ds =>
    refine ⟨d, ds ++ [c], by simpa using hcs, Or.inl (hblanks d List.mem_cons_self), fun r => ?_⟩
    simpa using hread r

lemma readUnits_unit (a b c d : Char) (rest : List Char) :
    readUnits ('\\' :: 'u' :: a :: b :: c :: d :: rest) =
      (unitOfHex? a b c d).bind fun unit =>
        (readUnits rest).map fun (t, rest) => (unit :: t, rest) := by
  rw [readUnits]
  cases unitOfHex? a b c d <;> cases readUnits rest <;> rfl

lemma readUnits_escape {c d : Char} (hc : simpleEscape? c = some d) (rest : List Char) :
    readUnits ('\\' :: c :: rest) =
      (readUnits rest).map fun (t, rest) => (.ofChar d :: t, rest) := by
  have hu : c ≠ 'u' := by
    rintro rfl
    cases hc
  rw [readUnits]
  case x_1 => exact fun _ _ _ _ _ h => absurd h hu
  rw [hc]
  cases readUnits rest <;> rfl

lemma readUnits_char {c : Char} (hquote : c ≠ '"') (hslash : c ≠ '\\') (hc : 0x20 ≤ c.toNat)
    (rest : List Char) :
    readUnits (c :: rest) = (readUnits rest).map fun (t, rest) => (.ofChar c :: t, rest) := by
  rw [readUnits]
  case x_1 => exact hquote
  case x_2 => exact fun _ _ _ _ _ h => absurd h hslash
  case x_3 => exact fun _ _ h => absurd h hslash
  rw [if_neg (by simpa [hslash] using hc)]
  cases readUnits rest <;> rfl

lemma readUnits_local {cs rest : List Char} {t : Text} (h : readUnits cs = some (t, rest)) :
    ∃ used, cs = used ++ rest ∧ ∀ r, readUnits (used ++ r) = some (t, r) := by
  fun_induction readUnits cs generalizing t rest with
  | case1 => cases h
  | case2 =>
    cases h
    exact ⟨['"'], rfl, fun r => rfl⟩
  | case3 a b c d cs ih =>
    obtain ⟨unit, hunit, h⟩ := Option.bind_eq_some_iff.mp h
    obtain ⟨⟨tail, after⟩, htail, h⟩ := Option.bind_eq_some_iff.mp h
    cases h
    obtain ⟨used, rfl, hread⟩ := ih htail
    refine ⟨'\\' :: 'u' :: a :: b :: c :: d :: used, rfl, fun r => ?_⟩
    simp only [List.cons_append, readUnits_unit, hunit, hread, Option.bind_some, Option.map_some]
  | case4 c cs _ ih =>
    obtain ⟨d, hd, h⟩ := Option.bind_eq_some_iff.mp h
    obtain ⟨⟨tail, after⟩, htail, h⟩ := Option.bind_eq_some_iff.mp h
    cases h
    obtain ⟨used, rfl, hread⟩ := ih htail
    refine ⟨'\\' :: c :: used, rfl, fun r => ?_⟩
    simp only [List.cons_append, readUnits_escape hd, hread, Option.map_some]
  | case5 => cases h
  | case6 c cs hquote _ _ hc ih =>
    obtain ⟨⟨tail, after⟩, htail, h⟩ := Option.bind_eq_some_iff.mp h
    cases h
    obtain ⟨used, rfl, hread⟩ := ih htail
    obtain ⟨hlow, hslash⟩ : 0x20 ≤ c.toNat ∧ c ≠ '\\' := by simpa using hc
    refine ⟨c :: used, rfl, fun r => ?_⟩
    simp only [List.cons_append, readUnits_char hquote hslash hlow, hread, Option.map_some]

lemma readText_local {cs rest : List Char} {t : Text} (h : readText cs = some (t, rest)) :
    ∃ used, cs = used ++ rest ∧ ∀ r, readText (used ++ r) = some (t, r) := by
  obtain ⟨⟨units, after⟩, hunits, h⟩ := Option.map_eq_some_iff.mp h
  cases h
  obtain ⟨used, rfl, hread⟩ := readUnits_local hunits
  exact ⟨used, rfl, fun r => by rw [readText, hread r, Option.map_some]⟩

lemma name?_local {cs rest : List Char} {t : Text} (h : name? cs = some (t, rest)) :
    ∃ used, cs = used ++ rest ∧ ∀ r, name? (used ++ r) = some (t, r) := by
  obtain ⟨front, hquote, h⟩ := Option.bind_eq_some_iff.mp h
  obtain ⟨⟨name, middle⟩, htext, h⟩ := Option.bind_eq_some_iff.mp h
  obtain ⟨after, hcolon, h⟩ := Option.map_eq_some_iff.mp h
  cases h
  obtain ⟨quote, usedQuote, rfl, -, hreadQuote⟩ := behind_local hquote
  obtain ⟨usedText, rfl, hreadText⟩ := readText_local htext
  obtain ⟨colon, usedColon, rfl, -, hreadColon⟩ := behind_local hcolon
  refine ⟨quote :: usedQuote ++ (usedText ++ colon :: usedColon), by simp, fun r => ?_⟩
  simp only [name?, List.append_assoc, hreadQuote, hreadText, hreadColon, Option.bind_some,
    Option.map_some]

lemma Opened.front?_local {k : Opened} {cs rest : List Char} {add : Json → Opened}
    (h : k.front? cs = some (add, rest)) :
    ∃ used, cs = used ++ rest ∧ ∀ r, k.front? (used ++ r) = some (add, r) := by
  cases k with
  | array items =>
    cases h
    exact ⟨[], rfl, fun r => rfl⟩
  | object members =>
    obtain ⟨⟨name, after⟩, hname, h⟩ := Option.map_eq_some_iff.mp h
    cases h
    obtain ⟨used, rfl, hread⟩ := name?_local hname
    exact ⟨used, rfl, fun r => by rw [front?, hread r, Option.map_some]⟩

/-- A number that is followed by such a character may go on. -/
def isNumeric (c : Char) : Bool := isDigit c || c = '.' || c = 'e' || c = 'E'

lemma splitDigits_append {used rest : List Char} (hused : ∀ c ∈ used, isDigit c = true)
    (hrest : Ends isDigit rest) : splitDigits (used ++ rest) = (used, rest) := by
  obtain ⟨htake, hdrop⟩ := takeWhile_append_of_ends hused hrest
  rw [splitDigits, htake, hdrop]

lemma splitDigits_spec {cs digits rest : List Char} (h : splitDigits cs = (digits, rest)) :
    cs = digits ++ rest ∧ (∀ c ∈ digits, isDigit c = true) ∧ Ends isDigit rest := by
  cases h
  exact ⟨(List.takeWhile_append_dropWhile ..).symm,
    fun c hc => List.all_eq_true.mp List.all_takeWhile c hc, ends_dropWhile isDigit cs⟩

lemma readWhole_local {cs whole rest : List Char} (h : readWhole cs = some (whole, rest)) :
    cs = whole ++ rest ∧ whole ≠ [] ∧ (∀ c ∈ whole, isDigit c = true) ∧
      ∀ r, Ends isDigit r → readWhole (whole ++ r) = some (whole, r) := by
  rw [readWhole.eq_def] at h
  split at h
  case h_1 =>
    cases h
    exact ⟨rfl, by simp, by simp [isDigit], fun r _ => rfl⟩
  case h_2 c cs hzero =>
    split at h
    case isFalse => cases h
    case isTrue hc =>
      obtain ⟨hcs, hdigits, -⟩ := splitDigits_spec (Option.some.inj h)
      cases whole with
      | nil =>
        have hsplit := Option.some.inj h
        rw [splitDigits, List.takeWhile_cons_of_pos hc] at hsplit
        cases hsplit
      | cons d ds =>
        obtain rfl : c = d := (List.cons.inj hcs).1
        refine ⟨hcs, by simp, hdigits, fun r hr => ?_⟩
        rw [List.cons_append, readWhole, if_pos hc, ← List.cons_append, splitDigits_append hdigits hr]
        exact hzero
  case h_3 => cases h

lemma readFraction_local {cs fraction rest : List Char} (h : readFraction cs = (fraction, rest)) :
    ∃ used, cs = used ++ rest ∧ Ends (· != '.') used ∧
      ∀ r, Ends (fun c => isDigit c || c = '.') r → readFraction (used ++ r) = (fraction, r) := by
  have hnone : ∀ r, Ends (fun c => isDigit c || c = '.') r → readFraction r = ([], r) := by
    intro r hr
    rw [readFraction.eq_def]
    split
    case h_1 => exact absurd (hr '.' rfl) (by simp)
    case h_2 => rfl
  rw [readFraction.eq_def] at h
  split at h
  case h_1 cs =>
    split at h
    case h_1 =>
      cases h
      exact ⟨[], rfl, by simp [Ends], hnone⟩
    case h_2 hempty =>
      obtain ⟨rfl, hdigits, -⟩ := splitDigits_spec h
      refine ⟨'.' :: fraction, rfl, by simp [Ends], fun r hr => ?_⟩
      have hsplit := splitDigits_append hdigits
        (hr.imp fun c hc => by simp [hc] : Ends isDigit r)
      rw [List.cons_append, readFraction, hsplit]
      cases fraction with
      | nil => exact absurd h (hempty _)
      | cons d ds => rfl
  case h_2 =>
    cases h
    exact ⟨[], rfl, by simp [Ends], hnone⟩

def leadingSign : List Char → Bool × List Char
  | '-' :: rest => (true, rest)
  | '+' :: rest => (false, rest)
  | rest => (false, rest)

lemma leadingSign_local {cs rest : List Char} {d : Char} {negative : Bool}
    (hd : isDigit d = true) (h : leadingSign cs = (negative, d :: rest)) :
    ∃ used, cs = used ++ d :: rest ∧ ∀ r, leadingSign (used ++ d :: r) = (negative, d :: r) := by
  rw [leadingSign.eq_def] at h
  split at h
  case h_1 =>
    cases h
    exact ⟨['-'], rfl, fun r => rfl⟩
  case h_2 =>
    cases h
    exact ⟨['+'], rfl, fun r => rfl⟩
  case h_3 hminus hplus =>
    cases h
    refine ⟨[], rfl, fun r => ?_⟩
    rw [List.nil_append, leadingSign]
    · rintro r ⟨⟩
      exact hminus rest rfl
    · rintro r ⟨⟩
      exact hplus rest rfl

lemma readExponent_mark {c : Char} (hc : (decide (c = 'e') || decide (c = 'E')) = true)
    (cs : List Char) :
    readExponent (c :: cs) =
      match splitDigits (leadingSign cs).2 with
      | ([], _) => (none, c :: cs)
      | (digits, rest) =>
        let n : Int := digitsValue digits
        (some (if (leadingSign cs).1 then -n else n), rest) := by
  rw [readExponent.eq_def]
  dsimp only
  rw [if_pos hc]
  rfl

lemma readExponent_of_ends {r : List Char} (hr : Ends isNumeric r) : readExponent r = (none, r) := by
  cases r with
  | nil => rfl
  | cons c cs =>
    have hc : ¬(decide (c = 'e') || decide (c = 'E')) = true := by
      have hnumeric := hr c rfl
      simp only [isNumeric, Bool.or_eq_false_iff] at hnumeric
      simp [hnumeric]
    rw [readExponent.eq_def]
    dsimp only
    rw [if_neg hc]

lemma readExponent_local {cs rest : List Char} {exponent : Option Int}
    (h : readExponent cs = (exponent, rest)) :
    ∃ used, cs = used ++ rest ∧ Ends (fun c => c != 'e' && c != 'E') used ∧
      ∀ r, Ends isNumeric r → readExponent (used ++ r) = (exponent, r) := by
  have hnone : (exponent, rest) = (none, cs) → ∃ used, cs = used ++ rest ∧
      Ends (fun c => c != 'e' && c != 'E') used ∧
        ∀ r, Ends isNumeric r → readExponent (used ++ r) = (exponent, r) := by
    rintro ⟨⟩
    exact ⟨[], rfl, by simp [Ends], fun r => readExponent_of_ends⟩
  cases cs with
  | nil => exact hnone h.symm
  | cons c cs =>
    by_cases hc : (decide (c = 'e') || decide (c = 'E')) = true
    case neg =>
      rw [readExponent.eq_def] at h
      dsimp only at h
      rw [if_neg hc] at h
      exact hnone h.symm
    case pos =>
      rcases hleading : leadingSign cs with ⟨negative, tail⟩
      rw [readExponent_mark hc, hleading] at h
      dsimp only at h
      split at h
      case h_1 => exact hnone h.symm
      case h_2 digits after hempty hsplit =>
        cases h
        obtain ⟨rfl, hdigits, -⟩ := splitDigits_spec hsplit
        cases digits with
        | nil => exact (hempty rfl).elim
        | cons d ds =>
          obtain ⟨used, rfl, hsign⟩ := leadingSign_local (hdigits d List.mem_cons_self) hleading
          have hmark : Ends (fun c => c != 'e' && c != 'E') (c :: (used ++ d :: ds)) := by
            rcases (by simpa using hc : c = 'e' ∨ c = 'E') with rfl | rfl <;> simp [Ends]
          refine ⟨c :: (used ++ d :: ds), by simp, hmark, fun r hr => ?_⟩
          have hsplit := splitDigits_append hdigits (hr.imp fun c hc => by simp [isNumeric, hc])
          rw [List.cons_append] at hsplit
          rw [List.cons_append, readExponent_mark hc, List.append_assoc, List.cons_append, hsign]
          dsimp only
          rw [hsplit]

def IsNumber : Json → Prop
  | .int _ | .real _ => True
  | _ => False

lemma isNumber_of_magnitude {negative : Bool} {whole fraction : List Char} {exponent : Option Int}
    {j : Json} (h : magnitude negative whole fraction exponent = .ok j) : IsNumber j := by
  rw [magnitude] at h
  split at h
  case isTrue =>
    split at h
    case isTrue => cases h
    case isFalse =>
      cases h
      trivial
  case isFalse =>
    cases h
    trivial

lemma readMagnitude_local {negative : Bool} {cs rest : List Char} {j : Json}
    (h : readMagnitude negative cs = .ok (j, rest)) :
    IsNumber j ∧ ∃ d used, cs = d :: used ++ rest ∧ isDigit d = true ∧
      ∀ r, Ends isNumeric r → readMagnitude negative (d :: used ++ r) = .ok (j, r) := by
  cases hwhole : readWhole cs with
  | none =>
    rw [readMagnitude_none hwhole] at h
    cases h
  | some found =>
    obtain ⟨whole, afterWhole⟩ := found
    rcases hfraction : readFraction afterWhole with ⟨fraction, afterFraction⟩
    rcases hexponent : readExponent afterFraction with ⟨exponent, afterExponent⟩
    rw [readMagnitude_some hwhole hfraction hexponent] at h
    cases hnumber : magnitude negative whole fraction exponent with
    | error e =>
      rw [hnumber] at h
      cases h
    | ok j =>
      rw [hnumber] at h
      cases h
      obtain ⟨rfl, hne, hdigits, hreadWhole⟩ := readWhole_local hwhole
      obtain ⟨d, ds, rfl⟩ := List.exists_cons_of_ne_nil hne
      obtain ⟨usedFraction, rfl, hpoint, hreadFraction⟩ := readFraction_local hfraction
      obtain ⟨usedExponent, rfl, hmark, hreadExponent⟩ := readExponent_local hexponent
      refine ⟨isNumber_of_magnitude hnumber, d, ds ++ (usedFraction ++ usedExponent), by simp,
        hdigits d List.mem_cons_self, fun r hr => ?_⟩
      -- Each part ends where the next one begins, as a mark is neither a digit nor a point.
      have hexponentEnds : Ends (fun c => isDigit c || c = '.') (usedExponent ++ r) := by
        refine Ends.append (hmark.imp fun c hc => ?_) (hr.imp fun c hc => ?_)
        · have he : isDigit 'e' = false ∧ isDigit 'E' = false := by decide
          simp only [Bool.and_eq_true, bne_iff_ne]
          constructor <;> rintro rfl <;> simp [he] at hc
        · simp only [isNumeric, hc, Bool.true_or]
      have hfractionEnds : Ends isDigit (usedFraction ++ (usedExponent ++ r)) := by
        refine Ends.append (hpoint.imp fun c hc => ?_) (hexponentEnds.imp fun c hc => by simp [hc])
        rw [bne_iff_ne]
        rintro rfl
        exact absurd hc (by decide)
      have hmagnitude := readMagnitude_some (hreadWhole _ hfractionEnds)
        (hreadFraction _ hexponentEnds) (hreadExponent r hr) negative
      rw [hnumber] at hmagnitude
      simpa only [List.append_assoc, List.cons_append, Except.map] using hmagnitude

lemma readNumber_digit {d : Char} (hd : isDigit d = true) (cs : List Char) :
    readNumber (d :: cs) = readMagnitude false (d :: cs) := by
  rw [readNumber.eq_def]
  split
  case h_1 | h_2 | h_3 | h_4 => simp_all [isDigit]
  case h_5 => rfl

lemma readNumber_minus {d : Char} (hd : isDigit d = true) (cs : List Char) :
    readNumber ('-' :: d :: cs) = readMagnitude true (d :: cs) := by
  rw [readNumber.eq_def]
  split
  case h_1 | h_2 | h_3 | h_5 => simp_all [isDigit]
  case h_4 => simp_all

def beginsNumber (c : Char) : Bool := isDigit c || c = '-' || c = 'N' || c = 'I'

lemma readNumber_local {cs rest : List Char} {j : Json} (h : readNumber cs = .ok (j, rest)) :
    IsNumber j ∧ ∃ c used, cs = c :: used ++ rest ∧ beginsNumber c = true ∧
      ∀ r, Ends isNumeric r → readNumber (c :: used ++ r) = .ok (j, r) := by
  rw [readNumber.eq_def] at h
  split at h
  case h_1 =>
    cases h
    exact ⟨trivial, 'N', ['a', 'N'], rfl, rfl, fun r _ => rfl⟩
  case h_2 =>
    cases h
    exact ⟨trivial, 'I', ['n', 'f', 'i', 'n', 'i', 't', 'y'], rfl, rfl, fun r _ => rfl⟩
  case h_3 =>
    cases h
    exact ⟨trivial, '-', ['I', 'n', 'f', 'i', 'n', 'i', 't', 'y'], rfl, rfl, fun r _ => rfl⟩
  case h_4 =>
    obtain ⟨hnumber, d, used, rfl, hd, hread⟩ := readMagnitude_local h
    refine ⟨hnumber, '-', d :: used, rfl, rfl, fun r hr => ?_⟩
    rw [List.cons_append, List.cons_append, readNumber_minus hd]
    exact hread r hr
  case h_5 =>
    obtain ⟨hnumber, d, used, rfl, hd, hread⟩ := readMagnitude_local h
    refine ⟨hnumber, d, used, rfl, by simp [beginsNumber, hd], fun r hr => ?_⟩
    rw [List.cons_append, readNumber_digit hd]
    exact hread r hr

lemma readScalar_number {c : Char} (hc : beginsNumber c = true) (cs : List Char) :
    readScalar (c :: cs) = readNumber (c :: cs) := by
  rw [readScalar.eq_def]
  split
  case h_1 | h_2 | h_3 | h_4 => simp_all [beginsNumber, isDigit]
  case h_5 => rfl

/-- A scalar does not depend on what follows it, unless it is a number that goes on. -/
lemma readScalar_local {cs rest : List Char} {j : Json} (h : readScalar cs = .ok (j, rest)) :
    ∃ c used, cs = c :: used ++ rest ∧
      ∀ r, (IsNumber j → Ends isNumeric r) → readScalar (c :: used ++ r) = .ok (j, r) := by
  rw [readScalar.eq_def] at h
  split at h
  case h_1 cs =>
    split at h
    case h_1 => cases h
    case h_2 t after htext =>
      cases h
      obtain ⟨used, rfl, hread⟩ := readText_local htext
      refine ⟨'"', used, rfl, fun r _ => ?_⟩
      simp only [List.cons_append, readScalar, hread]
  case h_2 =>
    cases h
    exact ⟨'n', ['u', 'l', 'l'], rfl, fun r _ => rfl⟩
  case h_3 =>
    cases h
    exact ⟨'t', ['r', 'u', 'e'], rfl, fun r _ => rfl⟩
  case h_4 =>
    cases h
    exact ⟨'f', ['a', 'l', 's', 'e'], rfl, fun r _ => rfl⟩
  case h_5 =>
    obtain ⟨hnumber, c, used, rfl, hc, hread⟩ := readNumber_local h
    refine ⟨c, used, rfl, fun r hr => ?_⟩
    rw [List.cons_append, readScalar_number hc]
    exact hread r (hr hnumber)

/-- What begins like a number is read as one, and nothing else is. -/
lemma isNumber_of_readScalar {c : Char} {cs rest : List Char} {j : Json}
    (h : readScalar (c :: cs) = .ok (j, rest)) : IsNumber j ↔ beginsNumber c = true := by
  constructor
  · intro hj
    rw [readScalar.eq_def] at h
    split at h
    case h_1 =>
      split at h <;> cases h
      exact hj.elim
    case h_2 | h_3 | h_4 =>
      cases h
      exact hj.elim
    case h_5 =>
      obtain ⟨-, d, used, heq, hd, -⟩ := readNumber_local h
      cases heq
      exact hd
  · intro hc
    rw [readScalar_number hc] at h
    exact (readNumber_local h).1

lemma readScalar_ne_value {cs rest : List Char} {k : Opened} :
    readScalar cs ≠ .ok (k.value, rest) := by
  intro h
  rw [readScalar.eq_def] at h
  split at h
  case h_1 =>
    split at h
    case h_1 => cases h
    case h_2 => cases k <;> cases h
  case h_2 | h_3 | h_4 => cases k <;> cases h
  case h_5 =>
    have hnumber := (readNumber_local h).1
    cases k <;> exact hnumber

lemma magnitude_ne_tooDeep {negative : Bool} {whole fraction : List Char} {exponent : Option Int} :
    magnitude negative whole fraction exponent ≠ .error .tooDeep := by
  rw [magnitude]
  intro h
  split at h
  · split at h <;> cases h
  · cases h

lemma readMagnitude_ne_tooDeep {negative : Bool} {cs : List Char} :
    readMagnitude negative cs ≠ .error .tooDeep := by
  cases hwhole : readWhole cs with
  | none =>
    rw [readMagnitude_none hwhole]
    exact nofun
  | some found =>
    rw [readMagnitude_some hwhole rfl rfl]
    generalize hnumber : magnitude negative found.1 _ _ = r
    cases r with
    | ok j => exact nofun
    | error e =>
      rintro ⟨⟩
      exact magnitude_ne_tooDeep hnumber

/-- A scalar has nothing inside that could be nested. -/
lemma readScalar_ne_tooDeep {cs : List Char} : readScalar cs ≠ .error .tooDeep := by
  rw [readScalar.eq_def]
  split
  case h_1 => split <;> exact nofun
  case h_2 | h_3 | h_4 => exact nofun
  case h_5 =>
    rw [readNumber.eq_def]
    split
    case h_1 | h_2 | h_3 => exact nofun
    case h_4 | h_5 => exact readMagnitude_ne_tooDeep

end ChainReplay.Json
