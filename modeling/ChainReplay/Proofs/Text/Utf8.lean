import ChainReplay.Disk
import ChainReplay.Proofs.Text.Encoding

/-! Texts as sequences of characters, in bytes and read back: which bytes are a text, and that of
ASCII characters each is one byte. -/

namespace ChainReplay

lemma CodePoint.ofChar_val (c : Char) : (CodePoint.ofChar c).val = c.toNat := by
  have h : c.toNat < 0x110000 := by
    rcases c.valid with h | h
    · exact Nat.lt_trans h (by decide)
    · exact h.2
  simp [CodePoint.ofChar, CodePoint.ofNat, h]

lemma CodePoint.toChar?_ofChar (c : Char) : (CodePoint.ofChar c).toChar? = some c := by
  have hsurrogate : (CodePoint.ofChar c).isSurrogate = false := by
    have hval := CodePoint.ofChar_val c
    rcases c.valid with h | h
    · change c.toNat < 0xD800 at h
      simp only [isSurrogate, hval, Bool.and_eq_false_imp, decide_eq_true_eq,
        decide_eq_false_iff_not]
      omega
    · change 0xDFFF < c.toNat ∧ c.toNat < 0x110000 at h
      simp only [isSurrogate, hval, Bool.and_eq_false_imp, decide_eq_true_eq,
        decide_eq_false_iff_not]
      omega
  rw [toChar?, hsurrogate, ofChar_val, Char.ofNat_toNat]
  rfl

lemma Text.chars?_ofChars (cs : List Char) : (Text.ofChars cs).chars? = some cs := by
  rw [Text.chars?, Text.ofChars]
  induction cs with
  | nil => rfl
  | cons c cs ih => simp [CodePoint.toChar?_ofChar, ih]

lemma CodePoint.eq_ofChar {c : CodePoint} {x : Char} (h : c.toChar? = some x) : c = ofChar x := by
  have hlt := c.isLt
  rw [toChar?] at h
  split at h
  case isTrue => cases h
  case isFalse hsurrogate =>
    cases h
    simp only [isSurrogate, Bool.and_eq_true, decide_eq_true_eq, not_and] at hsurrogate
    have hvalid : c.val.isValidChar := by
      rw [Nat.isValidChar]
      omega
    have hval : (ofChar (Char.ofNat c.val)).val = c.val := by
      rw [ofChar_val, Char.ofNat, dif_pos hvalid]
      exact UInt32.toNat_ofNatLT
    cases c
    cases hofChar : ofChar (Char.ofNat _)
    rw [hofChar] at hval
    cases hval
    rfl

lemma Text.chars?_eq_some_iff {t : Text} {cs : List Char} :
    t.chars? = some cs ↔ t = Text.ofChars cs := by
  refine ⟨fun h => ?_, fun h => h ▸ chars?_ofChars cs⟩
  induction t generalizing cs with
  | nil =>
    cases h
    rfl
  | cons c t ih =>
    rw [chars?, List.mapM_cons] at h
    obtain ⟨x, hx, h⟩ := Option.bind_eq_some_iff.mp h
    obtain ⟨xs, hxs, h⟩ := Option.bind_eq_some_iff.mp h
    cases h
    rw [ih hxs, CodePoint.eq_ofChar hx]
    rfl

lemma Text.exists_chars {t : Text} (h : ∀ c ∈ t, c.isSurrogate = false) :
    ∃ cs, t = Text.ofChars cs := by
  induction t with
  | nil => exact ⟨[], rfl⟩
  | cons c t ih =>
    obtain ⟨hc, ht⟩ := List.forall_mem_cons.mp h
    obtain ⟨cs, rfl⟩ := ih ht
    have hchar : c.toChar? = some (Char.ofNat c.val) := by simp [CodePoint.toChar?, hc]
    exact ⟨Char.ofNat c.val :: cs, congrArg (· :: Text.ofChars cs) (CodePoint.eq_ofChar hchar)⟩

namespace Utf8

def asciiBytes (cs : List Char) : Bytes := cs.map fun c => .ofNat c.toNat

lemma encodeFrom_ascii {cs : List Char} (h : ∀ c ∈ cs, c.toNat < 0x80) (start : Nat) :
    encodeFrom start (Text.ofChars cs) = .ok (asciiBytes cs) := by
  induction cs generalizing start with
  | nil => rfl
  | cons c cs ih =>
    have hc : c.toNat < 0x80 := h c List.mem_cons_self
    have hval := CodePoint.ofChar_val c
    have hsurrogate : (CodePoint.ofChar c).isSurrogate = false := by
      simp only [CodePoint.isSurrogate, hval, Bool.and_eq_false_imp, decide_eq_true_eq,
        decide_eq_false_iff_not]
      omega
    change encodeFrom start (CodePoint.ofChar c :: Text.ofChars cs) = _
    rw [encodeFrom, if_neg (by simp [hsurrogate]),
      ih (fun d hd => h d (List.mem_cons_of_mem c hd))]
    simp only [Except.map, encodeOne, hval, if_pos hc]
    rfl

lemma encode?_ascii {cs : List Char} (h : ∀ c ∈ cs, c.toNat < 0x80) :
    encode? (Text.ofChars cs) = some (asciiBytes cs) := by
  rw [encode?, encode, encodeFrom_ascii h]
  rfl

lemma front_ascii {c : Char} (h : c.toNat < 0x80) (rest : Bytes) :
    front (.ofNat c.toNat :: rest) = .scalar (.ofChar c) 1 := by
  have hnat : (UInt8.ofNat c.toNat).toNat = c.toNat := by
    rw [UInt8.toNat_ofNat']
    omega
  have hlt : UInt8.ofNat c.toNat < 0x80 := by
    rw [UInt8.lt_iff_toNat_lt, hnat]
    exact h
  rw [front, if_pos hlt, hnat]
  rfl

lemma decodeWithin_ascii {cs : List Char} (h : ∀ c ∈ cs, c.toNat < 0x80) (start : Nat) :
    decodeWithin (asciiBytes cs).length start (asciiBytes cs) = .ok (Text.ofChars cs) := by
  induction cs generalizing start with
  | nil => rfl
  | cons c cs ih =>
    change decodeWithin ((asciiBytes cs).length + 1) start (.ofNat c.toNat :: asciiBytes cs) = _
    rw [decodeWithin, front_ascii (h c List.mem_cons_self)]
    case x_3 => exact List.cons_ne_nil _ _
    simp only [List.drop_succ_cons, List.drop_zero,
      ih (fun d hd => h d (List.mem_cons_of_mem c hd))]
    rfl

lemma decode?_ascii {cs : List Char} (h : ∀ c ∈ cs, c.toNat < 0x80) :
    decode? (asciiBytes cs) = some (Text.ofChars cs) := by
  rw [decode?, decode, decodeWithin_ascii h]
  rfl

end Utf8

namespace Disk

lemma textOf_eq_ok_iff {content : Bytes} {lines : List Char} :
    textOf content = .ok lines ↔
      ∃ cs, Utf8.encode (Text.ofChars cs) = .ok content ∧ plainLines cs = lines := by
  constructor
  · intro h
    rw [textOf, Utf8.decode?] at h
    cases ht : Utf8.decode content with
    | error fault =>
      rw [ht] at h
      cases h
    | ok t =>
      obtain ⟨cs, rfl⟩ :=
        Text.exists_chars ((Utf8.encode_eq_ok_iff t content).mp
          ((Utf8.decode_eq_ok_iff content t).mp ht)).1
      simp only [ht, Except.toOption, Option.bind_some, Text.chars?_ofChars, Except.ok.injEq] at h
      exact ⟨cs, (Utf8.decode_eq_ok_iff content _).mp ht, h⟩
  · rintro ⟨cs, hcs, rfl⟩
    simp only [textOf, Utf8.decode?, (Utf8.decode_eq_ok_iff content _).mpr hcs, Except.toOption,
      Option.bind_some, Text.chars?_ofChars]

lemma textOf_eq_error_iff {content : Bytes} {f : Failure} :
    textOf content = .error f ↔
      f = .undecodable ∧ ∀ cs, Utf8.encode (Text.ofChars cs) ≠ .ok content := by
  constructor
  · intro h
    refine ⟨?_, fun cs hcs => ?_⟩
    · rw [textOf] at h
      split at h <;> cases h
      rfl
    · cases (textOf_eq_ok_iff.mpr ⟨cs, hcs, rfl⟩).symm.trans h
  · rintro ⟨rfl, hnone⟩
    cases h : textOf content with
    | ok lines =>
      obtain ⟨cs, hcs, -⟩ := textOf_eq_ok_iff.mp h
      exact absurd hcs (hnone cs)
    | error f =>
      rw [textOf] at h
      split at h <;> cases h
      rfl

lemma plainLines_of_forall {cs : List Char} (h : ∀ c ∈ cs, c ≠ '\r') : plainLines cs = cs := by
  induction cs with
  | nil => rfl
  | cons c cs ih =>
    have hc : c ≠ '\r' := h c List.mem_cons_self
    rw [plainLines.eq_def]
    split
    case h_1 heq => exact absurd (List.cons.inj heq).1 hc
    case h_2 heq => exact absurd (List.cons.inj heq).1 hc
    case h_3 heq =>
      cases heq
      rw [ih fun d hd => h d (List.mem_cons_of_mem c hd)]
    case h_4 heq => cases heq

lemma textOf_ascii {cs : List Char} (h : ∀ c ∈ cs, 0x20 ≤ c.toNat ∧ c.toNat < 0x80) :
    textOf ((Utf8.encode? (Text.ofChars cs)).getD []) = .ok cs := by
  have hascii : ∀ c ∈ cs, c.toNat < 0x80 := fun c hc => (h c hc).2
  have hreturn : ∀ c ∈ cs, c ≠ '\r' := by
    rintro c hc rfl
    exact absurd (h _ hc).1 (by decide)
  rw [Utf8.encode?_ascii hascii, Option.getD_some, textOf, Utf8.decode?_ascii hascii,
    Option.bind_some, Text.chars?_ofChars]
  simp only [plainLines_of_forall hreturn]

lemma textOf_asciiBytes {cs : List Char} (h : ∀ c ∈ cs, 0x20 ≤ c.toNat ∧ c.toNat < 0x80) :
    textOf (Utf8.asciiBytes cs) = .ok cs := by
  rw [← textOf_ascii h, Utf8.encode?_ascii fun c hc => (h c hc).2, Option.getD_some]

end Disk

end ChainReplay
