import ChainReplay.Address.Parse
import ChainReplay.Proofs.Bech32
import ChainReplay.Proofs.Bytes.Hexadecimal
import ChainReplay.Proofs.Text.Spelling
import ChainReplay.Proofs.Text.Utf8

/-! All text forms of an address are read as this address. -/

namespace ChainReplay.Address

open Text Bech32
open Bytes (SameDigit)

section Hexadecimal

lemma plain_of_sameDigit {n : Nat} (h : n < 16) {c : Char} (hc : SameDigit c (Bytes.hexDigit n)) :
    isBlank (.ofChar c) = false ∧ (CodePoint.ofChar c).val ≠ 0x3A3 ∧
      lowerCaseOne (.ofChar c) = [.ofChar (Bytes.hexDigit n)] ∧
        CodePoint.ofChar (Bytes.hexDigit n) ≠ .ofChar 'x' := by
  rcases hc with rfl | rfl
  · revert n
    decide +kernel
  · revert n
    decide +kernel

variable {cs : List Char} {a : Address} {mark : Text}

lemma hexPart_digits (h : List.Forall₂ SameDigit cs a.bytes.hexChars)
    (hmark : mark = "" ∨ mark = "0x" ∨ mark = "0X") :
    hexPart (mark ++ ofChars cs) = ofChars cs := by
  have hlength := h.length_eq
  rw [Bytes.length_hexChars, a.length_eq] at hlength
  have hdigits := Bytes.exists_of_sameDigits h
  obtain ⟨c, d, rest, rfl⟩ : ∃ c d rest, cs = c :: d :: rest := by
    match cs, hlength with
    | c :: d :: rest, _ => exact ⟨c, d, rest, rfl⟩
  rcases hmark with rfl | rfl | rfl
  · -- The second digit cannot be taken for the letter of the mark.
    obtain ⟨m, hm, hc⟩ := hdigits c (by simp)
    obtain ⟨n, hn, hd⟩ := hdigits d (by simp)
    obtain ⟨-, hsigma, hlow, -⟩ := plain_of_sameDigit hm hc
    obtain ⟨-, hsigma', hlow', hx⟩ := plain_of_sameDigit hn hd
    have hfront : toLower ((ofChars (c :: d :: rest)).take 2) =
        [.ofChar (Bytes.hexDigit m), .ofChar (Bytes.hexDigit n)] := by
      change lowerCaseAfter [] [.ofChar c, .ofChar d] = _
      rw [lowerCaseAfter, if_neg hsigma, lowerCaseAfter, if_neg hsigma', hlow, hlow']
      rfl
    have hmark : ¬toLower ((ofChars (c :: d :: rest)).take 2) = "0x" := by
      rw [hfront]
      exact fun heq => hx (List.cons.inj (List.cons.inj heq).2).1
    exact if_neg hmark
  · have hmark : toLower (ofString "0x") = "0x" := by decide +kernel
    exact if_pos hmark
  · have hmark : toLower (ofString "0X") = "0x" := by decide +kernel
    exact if_pos hmark

lemma ofHex?_digits (h : List.Forall₂ SameDigit cs a.bytes.hexChars)
    (hmark : mark = "" ∨ mark = "0x" ∨ mark = "0X") : ofHex? (mark ++ ofChars cs) = some a := by
  have hlength : (ofChars cs).length = 64 := by
    rw [ofChars, List.length_map, h.length_eq, Bytes.length_hexChars, a.length_eq]
  have hbytes : Bytes.ofHex? cs = some a.bytes :=
    (Bytes.ofHex?_eq_some_iff cs a.bytes).mpr (Bytes.hexForm_of_sameDigits h)
  have hback : ofBytes a.bytes = .ok a := dif_pos a.length_eq
  rw [ofHex?, hexPart_digits h hmark, if_pos hlength, chars?_ofChars, Option.bind_some, hbytes,
    Option.map_some, hback]

/-- Sixty-four digits in any case, with or without a mark, and blanks around them. -/
lemma ofText_digits (h : List.Forall₂ SameDigit cs a.bytes.hexChars)
    (hmark : mark = "" ∨ mark = "0x" ∨ mark = "0X") {front back : Text}
    (hfront : ∀ c ∈ front, isBlank c = true) (hback : ∀ c ∈ back, isBlank c = true) :
    ofText (front ++ (mark ++ ofChars cs) ++ back) = .ok a := by
  have hsolid : ∀ c ∈ mark ++ ofChars cs, isBlank c = false := by
    intro c hc
    rcases List.mem_append.mp hc with hc | hc
    · have hmarks : ∀ c ∈ ofString "" ++ ofString "0x" ++ ofString "0X", isBlank c = false := by decide
      apply hmarks
      rcases hmark with rfl | rfl | rfl <;> simp [hc]
    · obtain ⟨d, hd, rfl⟩ := List.mem_map.mp hc
      obtain ⟨n, hn, hdigit⟩ := Bytes.exists_of_sameDigits h d hd
      exact (plain_of_sameDigit hn hdigit).1
  have hne : mark ++ ofChars cs ≠ [] := by
    intro hnil
    have hlength := h.length_eq
    rw [Bytes.length_hexChars, a.length_eq] at hlength
    simp [List.append_eq_nil_iff, ofChars] at hnil
    simp [hnil.2] at hlength
  have hstrip : strip (front ++ (mark ++ ofChars cs) ++ back) = mark ++ ofChars cs :=
    Numeral.stripBy_append hfront hback hne hsolid
  rw [ofText, hstrip]
  dsimp only
  rw [if_neg (by simpa using hne), ofHex?_digits h hmark]

end Hexadecimal

section Witness

variable {hrp : Text} {version : Nat} {groups : List Nat} {program : Bytes}

lemma isBlank_of_isAllowed {c : CodePoint} (h : isAllowed c = true) : isBlank c = false := by
  have hranges : ∀ r ∈ blankRanges, r.2 < 33 ∨ 126 < r.1 := by decide
  simp only [isAllowed, Bool.and_eq_true, decide_eq_true_eq] at h
  rw [isBlank, CodePoint.within, List.any_eq_false]
  intro r hr
  have := hranges r hr
  simp only [Bool.and_eq_true, decide_eq_true_eq, not_and]
  omega

/-- The letters of the first two witness versions are no hexadecimal digits, so that no text form of
these versions is taken for digits, however long it is. -/
lemma ofHex?_spell (hpart : NetworkPart hrp) (hversion : version < 2) :
    ofHex? (spell hrp (version :: groups)) = none := by
  have hletter : ∀ version < 2, Bytes.isAsciiBlank ((charset[version]?).getD 'q') = false ∧
      Bytes.hexValue? ((charset[version]?).getD 'q') = none := by decide
  have hmem : digit version ∈ hexPart (spell hrp (version :: groups)) := by
    have hlength : 2 ≤ (hrp ++ [CodePoint.ofChar '1']).length := by
      have := List.length_pos_of_ne_nil hpart.ne_nil
      rw [List.length_append, List.length_singleton]
      omega
    have hspell : spell hrp (version :: groups) = (hrp ++ [.ofChar '1']) ++
        digit version :: (groups ++ checksum hrp (version :: groups)).map digit := by
      rw [spell_eq, List.append_assoc]
      rfl
    rw [hexPart, hspell]
    split
    · rw [List.drop_append_of_le_length hlength]
      simp
    · simp
  have hnone : (hexPart (spell hrp (version :: groups))).chars?.bind Bytes.ofHex? = none := by
    rw [Option.eq_none_iff_forall_ne_some]
    intro bs hbs
    obtain ⟨cs, hcs, hform⟩ := Option.bind_eq_some_iff.mp hbs
    rw [chars?_eq_some_iff.mp hcs, ofChars, List.mem_map] at hmem
    obtain ⟨c, hc, hdigit⟩ := hmem
    have hsame := congrArg CodePoint.toChar? hdigit
    rw [digit, CodePoint.toChar?_ofChar, CodePoint.toChar?_ofChar, Option.some.injEq] at hsame
    have hall := ((Bytes.ofHex?_eq_some_iff cs bs).mp hform).forall c hc
    rw [hsame, (hletter version hversion).1, (hletter version hversion).2] at hall
    simp at hall
  rw [ofHex?, hnone]
  simp

/-- Text forms of the first two witness versions are read as their programs. -/
lemma ofText_spell (hpart : NetworkPart hrp) (hversion : version < 2)
    (hfits : FitsVersion version program) :
    ofText (spell hrp (version :: groupsOfBytes program)) = ofProgram program := by
  have hdata := lt_of_mem_groups hfits
  have hstrip : strip (spell hrp (version :: groupsOfBytes program)) =
      spell hrp (version :: groupsOfBytes program) :=
    Numeral.stripBy_of_forall fun c hc => isBlank_of_isAllowed ((plain_spell hpart hdata).1 c hc)
  have hne : (spell hrp (version :: groupsOfBytes program)).isEmpty = false := by
    rw [spell_eq]
    simp
  rw [ofText, hstrip, hne]
  dsimp only
  rw [if_neg Bool.false_ne_true, ofHex?_spell hpart hversion]
  dsimp only
  rw [splitLast_spell hdata, Option.bind_some, toLower_spell hpart hdata,
    toLower_of_plain hpart.allowed hpart.lower, decode?_spell hpart hfits]

end Witness

lemma fitsVersion_taproot (a : Address) : FitsVersion 1 a.bytes := by
  rw [FitsVersion, a.length_eq]
  decide

/-- An address has a text form of version one for exactly the network parts in lower case. -/
theorem taproot_eq_ok_iff (a : Address) (hrp t : Text) :
    a.taproot hrp = .ok t ↔ NetworkPart hrp ∧ t = spell hrp (1 :: groupsOfBytes a.bytes) := by
  have hencode := encode?_eq_some_iff hrp a.fitsVersion_taproot (by decide) t
  rw [taproot, ← hencode]
  cases encode? hrp 1 a.bytes <;> simp

lemma isLegacy_iff (a : Address) :
    a.isLegacy = true ↔ a.bytes = Bytes.zeros 12 ++ a.bytes.drop 12 := by
  rw [isLegacy, decide_eq_true_eq]
  constructor
  · intro h
    rw [← h, List.take_append_drop]
  · intro h
    rw [h]
    exact List.take_left' rfl

/-- All text forms of an address name this address: its digits in any case, marked or not and with
blanks around them, its form of version one in any network that has one, and, if its first twelve
bytes are zero, the form of version zero of the other twenty in every network. -/
theorem text_forms_name_address (a : Address) :
    ofText a.text = .ok a ∧
      (∀ (front mark back : Text) (digits : List Char), (∀ c ∈ front, isBlank c = true) →
        (∀ c ∈ back, isBlank c = true) → (mark = "" ∨ mark = "0x" ∨ mark = "0X") →
          List.Forall₂ SameDigit digits a.bytes.hexChars →
            ofText (front ++ (mark ++ ofChars digits) ++ back) = .ok a) ∧
      (∀ hrp t, a.taproot hrp = .ok t → ofText t = .ok a) ∧
      (a.isLegacy = true → ∀ hrp, NetworkPart hrp →
        ∃ t, encode? hrp 0 (a.bytes.drop 12) = some t ∧ ofText t = .ok a) := by
  refine ⟨?_, ?_, ?_, ?_⟩
  · have hsame : List.Forall₂ SameDigit a.bytes.hexChars a.bytes.hexChars :=
      List.forall₂_same.mpr fun _ _ => .inl rfl
    have hnone : ∀ c ∈ ([] : Text), isBlank c = true := nofun
    have hread := ofText_digits hsame (.inr (.inl rfl)) hnone hnone
    rwa [List.append_nil] at hread
  · intro front mark back digits hfront hback hmark hdigits
    exact ofText_digits hdigits hmark hfront hback
  · intro hrp t h
    obtain ⟨hpart, rfl⟩ := (taproot_eq_ok_iff a hrp t).mp h
    rw [ofText_spell hpart (by decide) a.fitsVersion_taproot, ofProgram, dif_pos a.length_eq]
  · intro hlegacy hrp hpart
    have hlength : (a.bytes.drop 12).length = 20 := by rw [List.length_drop, a.length_eq]
    have hfits : FitsVersion 0 (a.bytes.drop 12) := by
      rw [FitsVersion, hlength]
      decide
    refine ⟨_, (encode?_eq_some_iff hrp hfits (by decide) _).mpr ⟨hpart, rfl⟩, ?_⟩
    rw [ofText_spell hpart (by decide) hfits, ofProgram, dif_neg (by rw [hlength]; decide),
      dif_pos hlength]
    obtain ⟨bytes, hbytes⟩ := a
    simp only [Except.ok.injEq, mk.injEq]
    exact ((isLegacy_iff _).mp hlegacy).symm

theorem text_forms_name_legacy_address :
    ∃ a t t', a.isLegacy = true ∧ encode? "bcrt" 0 (a.bytes.drop 12) = some t ∧
      ofText t = .ok a ∧ a.taproot "bcrt" = .ok t' ∧ ofText t' = .ok a ∧
      ofText ("\t " ++ ("0X" ++ ofChars (a.bytes.hexChars.map Char.toUpper)) ++ "\n") = .ok a := by
  let a : Address := ⟨Bytes.zeros 12 ++ List.replicate 20 0xAB, rfl⟩
  have hpart : NetworkPart "bcrt" := ⟨by decide, by decide, by decide, by decide⟩
  obtain ⟨-, hdigits, htaproot, hlegacy⟩ := text_forms_name_address a
  obtain ⟨t, ht, hread⟩ := hlegacy (by decide) "bcrt" hpart
  have ht' := (taproot_eq_ok_iff a "bcrt" _).mpr ⟨hpart, rfl⟩
  refine ⟨a, t, _, by decide, ht, hread, ht', htaproot _ _ ht', ?_⟩
  refine hdigits _ _ _ _ (by decide) (by decide) (.inr (.inr rfl)) ?_
  exact List.forall₂_map_left_iff.mpr (List.forall₂_same.mpr fun _ _ => .inr rfl)

end ChainReplay.Address
