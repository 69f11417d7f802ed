import Mathlib.Tactic.Lemma
import ChainReplay.Proofs.Text.Encoding
import ChainReplay.Wire.Format

/-! Which values a writer has a form for. -/

namespace ChainReplay

/-- The numbers that so many bytes can hold. -/
def Bytes.Holds (width : Nat) (n : Int) : Prop := 0 ≤ n ∧ n < 256 ^ width

def Bytes.HoldsSigned (n : Int) : Prop := -2 ^ 63 ≤ n ∧ n < 2 ^ 63

def Bytes.IsBlob (bs : Bytes) : Prop := bs.length < 2 ^ 32

/-- Texts of characters alone, if these are not too many. -/
structure Text.Writable (t : Text) : Prop where
  characters : ∀ c ∈ t, c.isSurrogate = false
  length : (t.flatMap Utf8.encodeOne).length < 2 ^ 32

def Json.WritableText (j : Json) : Prop := ∃ t, j = .text t ∧ t.Writable

/-- Lists that a count of so many bytes can stand before, with elements of one kind. -/
def Counted {α : Type} (width : Nat) (p : α → Prop) (as : List α) : Prop :=
  as.length < 256 ^ width ∧ ∀ a ∈ as, p a

namespace Emission

variable {α : Type}

lemma result_eq_ok_iff (e : Emission) : (∃ bs, e.result = .ok bs) ↔ e.failure = none := by
  rw [result]
  cases e.failure <;> simp

lemma andThen_failure_eq_none (a b : Emission) :
    (a.andThen b).failure = none ↔ a.failure = none ∧ b.failure = none := by
  rw [andThen]
  cases h : a.failure <;> simp [h]

lemma all_failure_eq_none (emit : α → Emission) (as : List α) :
    (all emit as).failure = none ↔ ∀ a ∈ as, (emit a).failure = none := by
  induction as with
  | nil => simp [all, empty]
  | cons a as ih => rw [all, andThen_failure_eq_none, ih, List.forall_mem_cons]

lemma unsigned_failure_eq_none (width : Nat) (n : Int) :
    (unsigned width n).failure = none ↔ 0 ≤ n ∧ n < 256 ^ width := by
  rw [unsigned]
  split <;> simp_all [written, failed]

lemma blob_failure_eq_none (bs : Bytes) : (blob bs).failure = none ↔ bs.length < 2 ^ 32 := by
  rw [blob, andThen_failure_eq_none, unsigned_failure_eq_none]
  simp only [written, and_true]
  omega

lemma text_failure_eq_none (t : Text) :
    (text t).failure = none ↔ ∃ bs, Utf8.encode t = .ok bs ∧ bs.length < 2 ^ 32 := by
  rw [text]
  cases Utf8.encode t with
  | error part => simp [failed]
  | ok bs => simp [blob_failure_eq_none]

lemma text_failure_eq_none_iff_writable (t : Text) : (text t).failure = none ↔ t.Writable := by
  rw [text_failure_eq_none]
  constructor
  · rintro ⟨bs, hbs, hlength⟩
    obtain ⟨hcharacters, rfl⟩ := (Utf8.encode_eq_ok_iff t bs).mp hbs
    exact ⟨hcharacters, hlength⟩
  · rintro ⟨hcharacters, hlength⟩
    exact ⟨_, (Utf8.encode_eq_ok_iff t _).mpr ⟨hcharacters, rfl⟩, hlength⟩

lemma signed64_failure_eq_none (n : Int) :
    (signed64 n).failure = none ↔ Bytes.HoldsSigned n := by
  rw [signed64, Bytes.HoldsSigned]
  split <;> simp_all [written, failed]

lemma count_failure_eq_none (width count : Nat) :
    (unsigned width count).failure = none ↔ count < 256 ^ width := by
  rw [unsigned_failure_eq_none]
  have hcast : ((256 ^ width : Nat) : Int) = 256 ^ width := Int.natCast_pow 256 width
  omega

lemma arrayCount_failure_eq_none (count : Nat) :
    (arrayCount count).failure = none ↔ count < 256 ^ 2 := by
  rw [arrayCount]
  split
  case isTrue hlong => exact iff_of_false nofun (by omega)
  case isFalse => exact count_failure_eq_none 2 count

/-- Lists with some count in front, each element of a kind that can be written. -/
lemma list_failure_eq_none {emit : α → Emission} {p : α → Prop} {width : Nat} {count : Emission}
    (as : List α) (hcount : count.failure = none ↔ as.length < 256 ^ width)
    (hp : ∀ a, (emit a).failure = none ↔ p a) :
    (count.andThen (all emit as)).failure = none ↔ Counted width p as := by
  rw [andThen_failure_eq_none, all_failure_eq_none, hcount]
  exact and_congr Iff.rfl (forall₂_congr fun a _ => hp a)

end Emission

namespace Format

/-- The values of a format that can be written: each number fits its width, each text consists of
characters, and no list or byte string is longer than its count can say. -/
def Fits : (f : Format) → f.Value → Prop
  | unsigned width, n => Bytes.Holds width n
  | signed64, n => Bytes.HoldsSigned n
  | boolean, _ => True
  | raw _, _ => True
  | blob, bs => Bytes.IsBlob bs
  | text, t => Text.Writable t
  | looseText, j => Json.WritableText j
  | address, _ => True
  | optional f, v => ∀ w : f.Value, v = some w → f.Fits w
  | array f, vs => Counted 2 f.Fits vs
  | counted width f, vs => Counted width f.Fits vs
  | pair f g, v => f.Fits v.1 ∧ g.Fits v.2

/-- A value can be written exactly if it fits. -/
theorem emit_failure_eq_none (f : Format) (v : f.Value) : (f.emit v).failure = none ↔ f.Fits v := by
  induction f with
  | unsigned width => exact Emission.unsigned_failure_eq_none width v
  | signed64 => exact Emission.signed64_failure_eq_none v
  | boolean => exact iff_of_true rfl trivial
  | raw length => exact iff_of_true rfl trivial
  | blob => exact Emission.blob_failure_eq_none v
  | text => exact Emission.text_failure_eq_none_iff_writable v
  | looseText =>
    cases v with
    | text t =>
      refine (Emission.text_failure_eq_none_iff_writable t).trans ⟨fun h => ⟨t, rfl, h⟩, ?_⟩
      rintro ⟨_, ⟨⟩, h⟩
      exact h
    | _ => exact iff_of_false nofun nofun
  | address => exact iff_of_true rfl trivial
  | optional f ih =>
    cases v with
    | none => exact iff_of_true rfl nofun
    | some w =>
      refine (Emission.andThen_failure_eq_none _ _).trans ⟨?_, fun h => ⟨rfl, (ih w).mpr (h w rfl)⟩⟩
      rintro ⟨-, h⟩ _ ⟨⟩
      exact (ih w).mp h
  | array f ih =>
    exact Emission.list_failure_eq_none v (Emission.arrayCount_failure_eq_none _) ih
  | counted width f ih =>
    exact Emission.list_failure_eq_none v (Emission.count_failure_eq_none width _) ih
  | pair f g ihf ihg =>
    exact (Emission.andThen_failure_eq_none _ _).trans (and_congr (ihf v.1) (ihg v.2))

end Format

end ChainReplay
