import Mathlib.Data.List.Forall2
import ChainReplay.Json.Printer
import ChainReplay.Json.Reader
import ChainReplay.Proofs.Text.Numeral
import ChainReplay.Proofs.Text.Utf8

/-! Documents of arrays and texts that need no escapes are read back from the line that they are
printed on. -/

namespace ChainReplay.Json

open Text

def IsPlain (c : Char) : Prop := 0x20 ≤ c.toNat ∧ c.toNat < 0x7F ∧ c.toNat ≠ 0x22 ∧ c.toNat ≠ 0x5C

lemma escapeOne_plain {c : Char} (h : IsPlain c) :
    escapeOne (.ofChar c) = [CodePoint.ofChar c] := by
  obtain ⟨hlow, hhigh, hquote, hslash⟩ := h
  rw [escapeOne]
  rw [CodePoint.ofChar_val]
  split <;> rename_i heq <;> try omega
  rw [if_pos (by simp [hlow, hhigh])]

lemma flatMap_escapeOne_plain {cs : List Char} (h : ∀ c ∈ cs, IsPlain c) :
    (ofChars cs).flatMap escapeOne = ofChars cs := by
  induction cs with
  | nil => rfl
  | cons c cs ih =>
    rw [ofChars_cons, List.flatMap_cons, escapeOne_plain (h c List.mem_cons_self),
      ih fun d hd => h d (List.mem_cons_of_mem c hd)]
    rfl

lemma readUnits_plain {cs : List Char} (h : ∀ c ∈ cs, IsPlain c) (rest : List Char) :
    readUnits (cs ++ '"' :: rest) = some (ofChars cs, rest) := by
  induction cs with
  | nil => rfl
  | cons c cs ih =>
    obtain ⟨hlow, _, hquote, hslash⟩ := h c List.mem_cons_self
    have hc : c ≠ '"' := by rintro rfl; exact hquote rfl
    have hc' : c ≠ '\\' := by rintro rfl; exact hslash rfl
    rw [List.cons_append, readUnits]
    case x_1 => exact hc
    case x_2 => intro _ _ _ _ _ heq; exact absurd heq hc'
    case x_3 => intro _ _ heq; exact absurd heq hc'
    rw [if_neg (by simpa [hc'] using hlow), ih fun d hd => h d (List.mem_cons_of_mem c hd)]
    rfl

lemma joinSurrogates_ascii {t : Text} (h : ∀ c ∈ t, c.val < 0x80) : joinSurrogates t = t := by
  induction t with
  | nil => rfl
  | cons a t ih =>
    have ha : a.val < 0x80 := h a List.mem_cons_self
    cases t with
    | nil => rfl
    | cons b t =>
      rw [joinSurrogates, if_neg, ih fun d hd => h d (List.mem_cons_of_mem a hd)]
      simp only [Bool.and_eq_true, decide_eq_true_eq, not_and]
      omega

lemma readText_plain {cs : List Char} (h : ∀ c ∈ cs, IsPlain c) (rest : List Char) :
    readText (cs ++ '"' :: rest) = some (ofChars cs, rest) := by
  have hjoin : joinSurrogates (ofChars cs) = ofChars cs := by
    refine joinSurrogates_ascii fun c hc => ?_
    obtain ⟨d, hd, rfl⟩ := List.mem_map.mp hc
    rw [CodePoint.ofChar_val]
    exact Nat.lt_trans (h d hd).2.1 (by decide)
  rw [readText, readUnits_plain h, Option.map_some]
  simp only [hjoin]

/-- The characters are the line of the document, and it is read from them wherever they stand. -/
structure Written (depth : Nat) (cs : List Char) (j : Json) : Prop where
  compact : j.compact = ofChars cs
  ascii : ∀ c ∈ cs, 0x20 ≤ c.toNat ∧ c.toNat < 0x80
  front : ∀ rest, skipSpace (cs ++ rest) = cs ++ rest
  nonempty : cs ≠ []
  opening : cs.head? ≠ some ']'
  read : ∀ n d rest, cs.length ≤ n → depth ≤ d → readValue n d (cs ++ rest) = .ok (j, rest)

lemma Written.text {cs : List Char} (h : ∀ c ∈ cs, IsPlain c) :
    Written 0 ('"' :: (cs ++ ['"'])) (.text (ofChars cs)) where
  compact := by
    change "\"" ++ (ofChars cs).flatMap escapeOne ++ "\"" = _
    rw [flatMap_escapeOne_plain h, ofChars_cons, ofChars_append]
    rfl
  ascii := by
    intro c hc
    simp only [List.mem_cons, List.mem_append, List.not_mem_nil, or_false] at hc
    rcases hc with rfl | hc | rfl
    · decide
    · exact ⟨(h c hc).1, Nat.lt_trans (h c hc).2.1 (by decide)⟩
    · decide
  front := fun _ => rfl
  nonempty := by simp
  opening := by simp
  read := by
    intro n d rest hn _
    obtain ⟨n, rfl⟩ : ∃ m, n = m + 1 := Nat.exists_eq_succ_of_ne_zero (by rintro rfl; simp at hn)
    have hassoc : '"' :: (cs ++ ['"']) ++ rest = '"' :: (cs ++ '"' :: rest) := by simp
    rw [hassoc, readValue, readText_plain h]

def glue : List (List Char) → List Char
  | [] => []
  | [cs] => cs
  | cs :: rest => cs ++ ',' :: ' ' :: glue rest

lemma glue_cons_cons (cs ds : List Char) (css : List (List Char)) :
    glue (cs :: ds :: css) = cs ++ ',' :: ' ' :: glue (ds :: css) := rfl

lemma join_ofChars (css : List (List Char)) :
    join ", " (css.map ofChars) = ofChars (glue css) := by
  induction css with
  | nil => rfl
  | cons cs css ih =>
    cases css with
    | nil => rfl
    | cons ds css =>
      change ofChars cs ++ ", " ++ join ", " ((ds :: css).map ofChars) = _
      rw [ih, glue_cons_cons, ofChars_append, List.append_assoc]
      rfl

lemma ascii_glue {css : List (List Char)}
    (h : ∀ cs ∈ css, ∀ c ∈ cs, 0x20 ≤ c.toNat ∧ c.toNat < 0x80) :
    ∀ c ∈ glue css, 0x20 ≤ c.toNat ∧ c.toNat < 0x80 := by
  induction css with
  | nil => nofun
  | cons cs css ih =>
    have hcs := h cs List.mem_cons_self
    have hcss := ih fun ds hds => h ds (List.mem_cons_of_mem cs hds)
    cases css with
    | nil => exact hcs
    | cons ds css =>
      intro c hc
      rw [glue_cons_cons, List.mem_append, List.mem_cons, List.mem_cons] at hc
      rcases hc with hc | rfl | rfl | hc
      · exact hcs c hc
      · decide
      · decide
      · exact hcss c hc

variable {depth : Nat} {css : List (List Char)} {items : List Json}

lemma compactItems_of_written (h : List.Forall₂ (Written depth) css items) :
    compactItems items = css.map ofChars := by
  induction h with
  | nil => rfl
  | cons hw _ ih => rw [compactItems, hw.compact, ih, List.map_cons]

lemma Written.front_glue {cs : List Char} {j : Json} (h : Written depth cs j)
    (css : List (List Char)) (rest : List Char) :
    skipSpace (glue (cs :: css) ++ rest) = glue (cs :: css) ++ rest ∧
      (glue (cs :: css) ++ rest).head? ≠ some ']' := by
  have hne : cs ≠ [] := h.nonempty
  obtain ⟨c, ds, rfl⟩ := List.exists_cons_of_ne_nil hne
  cases css with
  | nil => exact ⟨h.front _, h.opening⟩
  | cons es css =>
    rw [glue_cons_cons, List.append_assoc]
    exact ⟨h.front _, h.opening⟩

lemma readItems_of_written {cs : List Char} {j : Json}
    (h : List.Forall₂ (Written depth) (cs :: css) (j :: items)) {n d : Nat} (read : List Json)
    (rest : List Char) (hn : (glue (cs :: css)).length + 1 ≤ n) (hd : depth ≤ d) :
    readItems n d read (glue (cs :: css) ++ ']' :: rest) =
      .ok (.array (read.reverse ++ j :: items), rest) := by
  induction css generalizing cs j items n read with
  | nil =>
    cases h with
    | cons hw hrest =>
      cases hrest
      obtain ⟨n, rfl⟩ : ∃ m, n = m + 1 := Nat.exists_eq_succ_of_ne_zero (by omega)
      rw [readItems, glue, hw.read n d (']' :: rest) (by simpa [glue] using hn) hd]
      simp [skipSpace, isSpace]
  | cons ds css ih =>
    cases h with
    | cons hw hrest =>
      cases hrest with
      | @cons _ k _ items hw' hrest =>
        obtain ⟨n, rfl⟩ : ∃ m, n = m + 1 := Nat.exists_eq_succ_of_ne_zero (by omega)
        have hlength : cs.length + 2 + (glue (ds :: css)).length ≤ n := by
          rw [glue_cons_cons, List.length_append, List.length_cons, List.length_cons] at hn
          omega
        have hassoc : glue (cs :: ds :: css) ++ ']' :: rest =
            cs ++ ',' :: ' ' :: (glue (ds :: css) ++ ']' :: rest) := by
          rw [glue_cons_cons]
          simp
        have hfront : skipSpace (' ' :: (glue (ds :: css) ++ ']' :: rest)) =
            glue (ds :: css) ++ ']' :: rest := (hw'.front_glue css _).1
        have hskip : skipSpace (',' :: ' ' :: (glue (ds :: css) ++ ']' :: rest)) =
            ',' :: ' ' :: (glue (ds :: css) ++ ']' :: rest) := rfl
        rw [hassoc, readItems, hw.read n d _ (by omega) hd]
        simp only [hskip, hfront]
        rw [ih (.cons hw' hrest) (j :: read) (by omega)]
        simp

lemma readValue_items (n d : Nat) {cs : List Char} (h : ∀ rest, skipSpace cs ≠ ']' :: rest) :
    readValue (n + 1) (d + 1) ('[' :: cs) = readItems n d [] (skipSpace cs) := by
  simp only [readValue]

lemma Written.array (h : List.Forall₂ (Written depth) css items) :
    Written (depth + 1) ('[' :: (glue css ++ [']'])) (.array items) where
  compact := by
    rw [Json.compact, compactItems_of_written h, join_ofChars, ofChars_cons, ofChars_append]
    rfl
  ascii := by
    intro c hc
    simp only [List.mem_cons, List.mem_append, List.not_mem_nil, or_false] at hc
    rcases hc with rfl | hc | rfl
    · decide
    · have hascii := ((List.forall₂_and_left
        (p := fun cs : List Char => ∀ c ∈ cs, 0x20 ≤ c.toNat ∧ c.toNat < 0x80)
        (R := Written depth) _ _).mp (h.imp fun _ _ hw => ⟨hw.ascii, hw⟩)).1
      exact ascii_glue hascii c hc
    · decide
  front := fun _ => rfl
  nonempty := by simp
  opening := by simp
  read := by
    intro n d rest hn hd
    obtain ⟨n, rfl⟩ : ∃ m, n = m + 1 := Nat.exists_eq_succ_of_ne_zero (by rintro rfl; simp at hn)
    obtain ⟨d, rfl⟩ : ∃ m, d = m + 1 := Nat.exists_eq_succ_of_ne_zero (by omega)
    have hassoc : '[' :: (glue css ++ [']']) ++ rest = '[' :: (glue css ++ ']' :: rest) := by simp
    rw [hassoc]
    cases h with
    | nil => rfl
    | @cons cs j css items hw hrest =>
      obtain ⟨hfront, hopening⟩ := hw.front_glue _ (']' :: rest)
      have hitems : ∀ tail, skipSpace (glue (cs :: css) ++ ']' :: rest) ≠ ']' :: tail := by
        intro tail heq
        rw [← hfront, heq] at hopening
        exact hopening rfl
      simp only [List.length_cons, List.length_append, List.length_nil] at hn
      rw [readValue_items n d hitems, hfront,
        readItems_of_written (.cons hw hrest) [] rest (by omega) (by omega)]
      rfl

lemma parse_of_written {depth : Nat} {cs : List Char} {j : Json} (h : Written depth cs j)
    (hd : depth ≤ deepest) : parse cs = .ok j := by
  have hfront : skipSpace cs = cs := by simpa using h.front []
  have hread := h.read (2 * cs.length + 1) deepest [] (by omega) hd
  rw [List.append_nil] at hread
  simp only [parse, readPrefix, hfront, hread]
  rfl

end ChainReplay.Json
