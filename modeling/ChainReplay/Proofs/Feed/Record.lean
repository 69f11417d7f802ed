import ChainReplay.Feed.Record
import ChainReplay.Proofs.Binary64
import ChainReplay.Proofs.Bytes.Base64
import ChainReplay.Proofs.Bytes.Number
import ChainReplay.Proofs.Text.Spelling
import ChainReplay.Proofs.Text.Utf8
import ChainReplay.Proofs.Transaction.Orderly

/-! Which documents are records of storage writes, what they are read as, and how a reading
fails. -/

namespace ChainReplay.StateRecord

open Decoding

variable {field : Text} {raw inner j : Json} {t : Text} {n : Nat} {k : Int} {q : ℚ}
  {r : StateRecord}

/-- A text is given as it is or in an envelope of two objects. -/
inductive HoldsText : Json → Text → Prop
  | plain (t : Text) : HoldsText (.text t) t
  | binary {raw inner : Json} {t : Text} (hraw : raw.member? "$binary" = some inner)
    (hinner : inner.member? "base64" = some (.text t)) : HoldsText raw t

def GivesWord (raw : Json) (n : Nat) : Prop :=
  ∃ cs bs, HoldsText raw (Text.ofChars cs) ∧ Base64.Spells cs bs ∧ bs.length = 32 ∧ bs.toNat = n

inductive HoldsHeight : Json → Json → Prop
  | plain {raw : Json} (h : ∀ members, raw ≠ .object members) : HoldsHeight raw raw
  | long {raw inner : Json} (h : raw.member? "$numberLong" = some inner) : HoldsHeight raw inner

/-- The number that a value stands for. -/
inductive Denotes : Json → ℚ → Prop
  | int (n : Int) : Denotes (.int n) n
  | real {x : Binary64} {q : ℚ} (h : x.value? = some q) : Denotes (.real x) q
  | text {t : Text} {n : Int} (h : Numeral.Signed Numeral.Decimal t n) : Denotes (.text t) n

structure GivesWords (j : Json) (pointer value : Nat) : Prop where
  pointer : ∃ raw, j.member? "pointer" = some raw ∧ GivesWord raw pointer
  value : ((j.member? "value").getD .null = .null ∧ value = 0) ∨
    ∃ raw, j.member? "value" = some raw ∧ GivesWord raw value

def HeightIn (j inner : Json) : Prop :=
  ∃ raw, j.member? "lastSeenAt" = some raw ∧ HoldsHeight raw inner

structure Describes (j : Json) (r : StateRecord) : Prop where
  words : GivesWords j r.pointer r.value
  height : ∃ inner q, HeightIn j inner ∧ Denotes inner q ∧ r.height = wholePart q

def wordDocument (n : Nat) : Json := .text (Text.ofChars (Base64.encode (Bytes.ofNat 32 n)))

def documentWith (pointer value : Nat) (height : Json) : Json :=
  .object [("pointer", wordDocument pointer), ("value", wordDocument value), ("lastSeenAt", height)]

/-- The record written with canonical words and an integer. -/
def document (r : StateRecord) : Json := documentWith r.pointer r.value (.int r.height)

lemma wordText_eq_some_iff : wordText raw = some t ↔ HoldsText raw t := by
  constructor
  · intro h
    cases raw with
    | text t' =>
      cases h
      exact .plain t
    | object members =>
      simp only [wordText] at h
      cases hinner : ((Json.object members).member? "$binary").bind (·.member? "base64") with
      | none =>
        rw [hinner] at h
        cases h
      | some inner =>
        obtain ⟨middle, hmiddle, hbase⟩ := Option.bind_eq_some_iff.mp hinner
        rw [hinner, Option.getD_some] at h
        cases inner with
        | text t' =>
          cases h
          exact .binary hmiddle hbase
        | null | bool | int | real | array | object => cases h
    | null | bool | int | real | array => cases h
  · rintro (_ | ⟨hraw, hinner⟩)
    · rfl
    · cases raw with
      | object members =>
        simp only [wordText, hraw, Option.bind_some, hinner, Option.getD_some]
      | null | bool | int | real | text | array => cases hraw

lemma wordOf_eq_ok_iff : wordOf field raw = .ok n ↔ GivesWord raw n := by
  constructor
  · intro h
    rw [wordOf] at h
    split at h
    case h_1 => cases h
    case h_2 t ht =>
      split at h
      case h_1 => cases h
      case h_2 bs hbs =>
        split at h
        case isFalse => cases h
        case isTrue hlength =>
          cases h
          obtain ⟨cs, hcs, hdecode⟩ := Option.bind_eq_some_iff.mp hbs
          obtain rfl := Text.chars?_eq_some_iff.mp hcs
          have hspells := (Base64.decode?_eq_some_iff (by rw [hlength])).mp hdecode
          exact ⟨cs, bs, wordText_eq_some_iff.mp ht, hspells, hlength, rfl⟩
  · rintro ⟨cs, bs, htext, hspells, hlength, rfl⟩
    rw [wordOf, wordText_eq_some_iff.mpr htext]
    dsimp only
    rw [Text.chars?_ofChars, Option.bind_some,
      (Base64.decode?_eq_some_iff (by rw [hlength])).mpr hspells]
    dsimp only
    rw [if_pos hlength]

def Endless (inner : Json) : Prop := ∃ negative, inner = .real (.infinite negative)

def numberOf (inner : Json) : Except Failure Int :=
  match inner with
  | .bool _ => .error (.format .heightIsBoolean)
  | inner =>
    match inner.integer with
    | .ok n => .ok n
    | .error .overflow => .error .overflow
    | .error _ => .error (.format (.badHeight inner))

lemma Denotes.numberOf_eq (h : Denotes inner q) : numberOf inner = .ok (wholePart q) := by
  cases h with
  | int n => rw [wholePart_intCast]; rfl
  | real h => simp only [numberOf, Json.integer, Binary64.truncate?_eq, h, Option.map_some]
  | text h =>
    rw [wholePart_intCast]
    simp only [numberOf, Json.integer, Numeral.integer?_eq_some_iff.mpr h]

lemma numberOf_cases (inner : Json) :
    (∃ q, Denotes inner q) ∨ Endless inner ∨ ∃ reason, numberOf inner = .error (.format reason) := by
  cases inner with
  | int n => exact .inl ⟨n, .int n⟩
  | text t =>
    cases ht : Numeral.integer? t with
    | some n => exact .inl ⟨n, .text (Numeral.integer?_eq_some_iff.mp ht)⟩
    | none => exact .inr (.inr ⟨.badHeight (.text t), by simp only [numberOf, Json.integer, ht]⟩)
  | real x =>
    cases x with
    | finite => exact .inl ⟨_, .real rfl⟩
    | infinite negative => exact .inr (.inl ⟨negative, rfl⟩)
    | nan => exact .inr (.inr ⟨_, rfl⟩)
  | null | bool | array | object => exact .inr (.inr ⟨_, rfl⟩)

lemma HoldsHeight.heightOf_eq (h : HoldsHeight raw inner) : heightOf raw = numberOf inner := by
  cases h with
  | plain h =>
    cases raw with
    | object members => exact absurd rfl (h members)
    | null | bool | int | real | text | array => rfl
  | long h =>
    cases raw with
    | object members => simp only [heightOf, h, Option.getD_some]; rfl
    | null | bool | int | real | text | array => cases h

lemma heightOf_cases (raw : Json) :
    (∃ inner, HoldsHeight raw inner) ∨ heightOf raw = .error (.format (.badHeight .null)) := by
  cases raw with
  | object members =>
    cases hinner : (Json.object members).member? "$numberLong" with
    | some inner => exact .inl ⟨inner, .long hinner⟩
    | none => exact .inr (by simp only [heightOf, hinner]; rfl)
  | null | bool | int | real | text | array => exact .inl ⟨_, .plain nofun⟩

def valueOf (j : Json) : Except Failure Nat :=
  match (j.member? "value").getD .null with
  | .null => .ok 0
  | raw => wordOf "value" raw

lemma ofJson_eq {pointer lastSeenAt : Json} (hpointer : j.member? "pointer" = some pointer)
    (hheight : j.member? "lastSeenAt" = some lastSeenAt) :
    ofJson j = do
      let p ← wordOf "pointer" pointer
      let v ← valueOf j
      let h ← heightOf lastSeenAt
      return ⟨p, v, h⟩ := by
  cases j with
  | object members =>
    simp only [ofJson, hpointer, hheight, valueOf]
    cases wordOf "pointer" pointer with
    | error f => rfl
    | ok p => cases ((Json.object members).member? "value").getD .null <;> rfl
  | null | bool | int | real | text | array => cases hpointer

lemma ofJson_cases (j : Json) :
    (∃ pointer lastSeenAt, j.member? "pointer" = some pointer ∧
      j.member? "lastSeenAt" = some lastSeenAt) ∨ ∃ reason, ofJson j = .error (.format reason) := by
  cases j with
  | object members =>
    cases hpointer : (Json.object members).member? "pointer" with
    | none => exact .inr ⟨.recordIncomplete, by simp only [ofJson, hpointer]⟩
    | some pointer =>
      cases hheight : (Json.object members).member? "lastSeenAt" with
      | none => exact .inr ⟨.recordIncomplete, by simp only [ofJson, hpointer, hheight]⟩
      | some lastSeenAt => exact .inl ⟨pointer, lastSeenAt, rfl, rfl⟩
  | null | bool | int | real | text | array => exact .inr ⟨_, rfl⟩

lemma not_givesWord_null : ¬ GivesWord .null n := by
  rintro ⟨cs, bs, _ | ⟨hraw, _⟩, _⟩
  cases hraw

lemma valueOf_eq_ok_iff : valueOf j = .ok n ↔
    ((j.member? "value").getD .null = .null ∧ n = 0) ∨
      ∃ raw, j.member? "value" = some raw ∧ GivesWord raw n := by
  rw [valueOf]
  cases hraw : j.member? "value" with
  | none => simp [eq_comm]
  | some raw =>
    cases raw with
    | null => simp [not_givesWord_null, eq_comm]
    | bool | int | real | text | array | object => simp [wordOf_eq_ok_iff]

theorem ofJson_eq_ok_iff : ofJson j = .ok r ↔ Describes j r := by
  constructor
  · intro h
    obtain ⟨pointer, lastSeenAt, hpointer, hheight⟩ | ⟨reason, hreason⟩ := ofJson_cases j
    · rw [ofJson_eq hpointer hheight] at h
      obtain ⟨p, hp, h⟩ := bind_eq_ok_iff.mp h
      obtain ⟨v, hv, h⟩ := bind_eq_ok_iff.mp h
      obtain ⟨k, hk, h⟩ := bind_eq_ok_iff.mp h
      cases h
      refine ⟨⟨⟨pointer, hpointer, wordOf_eq_ok_iff.mp hp⟩, valueOf_eq_ok_iff.mp hv⟩, ?_⟩
      obtain ⟨inner, hinner⟩ | hnull := heightOf_cases lastSeenAt
      · rw [hinner.heightOf_eq] at hk
        obtain ⟨q, hq⟩ | ⟨negative, rfl⟩ | ⟨reason, hreason⟩ := numberOf_cases inner
        · rw [hq.numberOf_eq] at hk
          cases hk
          exact ⟨inner, q, ⟨lastSeenAt, hheight, hinner⟩, hq, rfl⟩
        · cases hk
        · cases hreason.symm.trans hk
      · cases hnull.symm.trans hk
    · cases hreason.symm.trans h
  · rintro ⟨⟨⟨pointer, hpointer, hp⟩, hv⟩, inner, q, ⟨lastSeenAt, hheight, hinner⟩, hq, hk⟩
    rw [ofJson_eq hpointer hheight, wordOf_eq_ok_iff.mpr hp, valueOf_eq_ok_iff.mpr hv,
      hinner.heightOf_eq, hq.numberOf_eq, ← hk]
    rfl

/-- The words are well-formed, but the height is infinite. -/
def Overruns (j : Json) : Prop :=
  (∃ pointer value, GivesWords j pointer value) ∧ ∃ inner, HeightIn j inner ∧ Endless inner

lemma fails_wordOf : Fails Failure.IsFormat (wordOf field raw) := by
  rw [wordOf]
  split
  · exact .error trivial
  · split
    · exact .error trivial
    · split
      · exact .ok _
      · exact .error trivial

lemma fails_valueOf : Fails Failure.IsFormat (valueOf j) := by
  rw [valueOf]
  split
  · exact .ok 0
  · exact fails_wordOf

lemma heightOf_eq_overflow_iff :
    heightOf raw = .error .overflow ↔ ∃ inner, HoldsHeight raw inner ∧ Endless inner := by
  constructor
  · intro h
    obtain ⟨inner, hinner⟩ | hnull := heightOf_cases raw
    · rw [hinner.heightOf_eq] at h
      obtain ⟨q, hq⟩ | hendless | ⟨reason, hreason⟩ := numberOf_cases inner
      · cases hq.numberOf_eq.symm.trans h
      · exact ⟨inner, hinner, hendless⟩
      · cases hreason.symm.trans h
    · cases hnull.symm.trans h
  · rintro ⟨inner, hinner, negative, rfl⟩
    rw [hinner.heightOf_eq]
    rfl

lemma fails_heightOf : Fails (fun f => f.IsFormat ∨ f = .overflow) (heightOf raw) := by
  intro f hf
  obtain ⟨inner, hinner⟩ | hnull := heightOf_cases raw
  · rw [hinner.heightOf_eq] at hf
    obtain ⟨q, hq⟩ | ⟨negative, rfl⟩ | ⟨reason, hreason⟩ := numberOf_cases inner
    · cases hq.numberOf_eq.symm.trans hf
    · cases hf
      exact .inr rfl
    · cases hreason.symm.trans hf
      exact .inl trivial
  · cases hnull.symm.trans hf
    exact .inl trivial

lemma fails_ofJson : Fails (fun f => f.IsFormat ∨ f = .overflow) (ofJson j) := by
  obtain ⟨pointer, lastSeenAt, hpointer, hheight⟩ | ⟨reason, hreason⟩ := ofJson_cases j
  · rw [ofJson_eq hpointer hheight]
    refine .bind (fails_wordOf.imp fun f => .inl) fun p _ => ?_
    refine .bind (fails_valueOf.imp fun f => .inl) fun v _ => ?_
    exact .bind fails_heightOf fun k _ => .ok _
  · rw [hreason]
    exact .error (.inl trivial)

theorem ofJson_eq_overflow_iff : ofJson j = .error .overflow ↔ Overruns j := by
  constructor
  · intro h
    obtain ⟨pointer, lastSeenAt, hpointer, hheight⟩ | ⟨reason, hreason⟩ := ofJson_cases j
    · rw [ofJson_eq hpointer hheight] at h
      obtain hp | ⟨p, hp, h⟩ := bind_eq_error_iff.mp h
      · exact (fails_wordOf _ hp).elim
      obtain hv | ⟨v, hv, h⟩ := bind_eq_error_iff.mp h
      · exact (fails_valueOf _ hv).elim
      obtain hk | ⟨k, -, h⟩ := bind_eq_error_iff.mp h
      · obtain ⟨inner, hinner, hendless⟩ := heightOf_eq_overflow_iff.mp hk
        exact ⟨⟨p, v, ⟨pointer, hpointer, wordOf_eq_ok_iff.mp hp⟩, valueOf_eq_ok_iff.mp hv⟩,
          inner, ⟨lastSeenAt, hheight, hinner⟩, hendless⟩
      · cases h
    · cases hreason.symm.trans h
  · rintro ⟨⟨p, v, ⟨pointer, hpointer, hp⟩, hv⟩, inner, ⟨lastSeenAt, hheight, hinner⟩, hendless⟩
    rw [ofJson_eq hpointer hheight, wordOf_eq_ok_iff.mpr hp, valueOf_eq_ok_iff.mpr hv,
      heightOf_eq_overflow_iff.mpr ⟨inner, hinner, hendless⟩]
    rfl

lemma givesWord_wordDocument (hn : n < 2 ^ 256) : GivesWord (wordDocument n) n := by
  have hlength := Bytes.length_ofNat 32 n
  have hspells := (Base64.decode?_eq_some_iff (by rw [hlength])).mp
    (Base64.decode?_encode (Bytes.ofNat 32 n))
  exact ⟨_, _, .plain _, hspells, hlength, Bytes.toNat_ofNat hn⟩

lemma GivesWord.binary (hraw : raw.member? "$binary" = some inner)
    (hinner : inner.member? "base64" = some (.text t)) (h : GivesWord (.text t) n) :
    GivesWord raw n := by
  obtain ⟨cs, bs, _ | ⟨hmember, _⟩, hspells⟩ := h
  · exact ⟨cs, bs, .binary hraw hinner, hspells⟩
  · cases hmember

lemma GivesWord.lt (h : GivesWord raw n) : n < 2 ^ 256 := by
  obtain ⟨cs, bs, -, -, hlength, rfl⟩ := h
  have hlt := bs.toNat_lt
  rw [hlength] at hlt
  exact hlt

lemma GivesWords.lt {pointer value : Nat} (h : GivesWords j pointer value) :
    pointer < 2 ^ 256 ∧ value < 2 ^ 256 := by
  obtain ⟨⟨raw, -, hpointer⟩, ⟨-, rfl⟩ | ⟨raw', -, hvalue⟩⟩ := h
  · exact ⟨hpointer.lt, Nat.two_pow_pos 256⟩
  · exact ⟨hpointer.lt, hvalue.lt⟩

lemma ofJson_documentWith {pointer value : Nat} (hpointer : pointer < 2 ^ 256)
    (hvalue : value < 2 ^ 256) (h : Denotes inner q) :
    ofJson (documentWith pointer value inner) = .ok ⟨pointer, value, wholePart q⟩ := by
  refine ofJson_eq_ok_iff.mpr ⟨⟨?_, .inr ?_⟩, inner, q, ⟨inner, rfl, .plain ?_⟩, h, rfl⟩
  · exact ⟨_, rfl, givesWord_wordDocument hpointer⟩
  · exact ⟨_, rfl, givesWord_wordDocument hvalue⟩
  · rintro members rfl
    cases h

/-- A record is what its document says, with the height rounded towards zero, and it is read back
from its canonical document. -/
theorem exact_of_ofJson (h : ofJson j = .ok r) :
    Describes j r ∧
      (∀ inner q, HeightIn j inner → Denotes inner q → ((r.height : ℚ) = q ↔ ∃ n : Int, q = n)) ∧
      ofJson r.document = .ok r := by
  have hdescribes := ofJson_eq_ok_iff.mp h
  refine ⟨hdescribes, ?_, ?_⟩
  · rintro inner q ⟨raw, hraw, hinner⟩ hq
    obtain ⟨inner', q', ⟨raw', hraw', hinner'⟩, hq', hheight⟩ := hdescribes.height
    obtain rfl := Option.some.inj (hraw.symm.trans hraw')
    -- Both are descriptions of the one number that the height is read as.
    have hread : numberOf inner = numberOf inner' := hinner.heightOf_eq.symm.trans hinner'.heightOf_eq
    rw [hq.numberOf_eq, hq'.numberOf_eq] at hread
    rw [hheight, ← Except.ok.inj hread]
    constructor
    · intro hwhole
      exact ⟨_, hwhole.symm⟩
    · rintro ⟨n, rfl⟩
      rw [wholePart_intCast]
  · obtain ⟨hpointer, hvalue⟩ := hdescribes.words.lt
    have hread := ofJson_documentWith hpointer hvalue (.int r.height)
    rw [wholePart_intCast] at hread
    exact hread

/-- A pointer in an envelope, no value, and a text as the height. -/
def enveloped : Json :=
  .object [("pointer", .object [("$binary", .object [("base64", wordDocument 7)])]),
    ("lastSeenAt", .object [("$numberLong", .text " -1_2")])]

theorem exact_of_enveloped : ofJson enveloped = .ok ⟨7, 0, -12⟩ ∧
    Describes enveloped ⟨7, 0, -12⟩ ∧
    (∀ inner q, HeightIn enveloped inner → Denotes inner q →
      (((-12 : Int) : ℚ) = q ↔ ∃ n : Int, q = n)) ∧
    ofJson (document ⟨7, 0, -12⟩) = .ok ⟨7, 0, -12⟩ := by
  have h : ofJson enveloped = .ok ⟨7, 0, -12⟩ := by
    have hnumber : Numeral.integer? " -1_2" = some (-12) := by decide
    have hword : GivesWord (wordDocument 7) 7 := givesWord_wordDocument (by decide)
    exact ofJson_eq_ok_iff.mpr ⟨⟨⟨_, rfl, .binary rfl rfl hword⟩, .inl ⟨rfl, rfl⟩⟩, _, _,
      ⟨_, rfl, .long rfl⟩, .text (Numeral.integer?_eq_some_iff.mp hnumber),
      (wholePart_intCast _).symm⟩
  exact ⟨h, exact_of_ofJson h⟩

def fractional : Json := .real (.finite false (3 * 2 ^ 51) (-52))

theorem fraction_is_cut_off : ofJson (documentWith 1 2 fractional) = .ok ⟨1, 2, 1⟩ ∧
    HeightIn (documentWith 1 2 fractional) fractional ∧
    ∀ n : Int, ¬ Denotes fractional n := by
  have hvalue : (Binary64.finite false (3 * 2 ^ 51) (-52)).value? = some (3 / 2) := by
    norm_num [Binary64.value?]
  have hread : ofJson (documentWith 1 2 fractional) = .ok ⟨1, 2, wholePart (3 / 2)⟩ :=
    ofJson_documentWith (by decide) (by decide) (.real hvalue)
  have hwhole : wholePart (3 / 2) = 1 := by norm_num [wholePart]
  rw [hwhole] at hread
  refine ⟨hread, ⟨fractional, rfl, .plain fun _ h => Json.noConfusion h⟩, fun n hn => ?_⟩
  generalize hq : (n : ℚ) = q at hn
  obtain _ | h := hn
  rw [hvalue] at h
  have htwice : (2 * n : ℚ) = 3 := by
    rw [hq, ← Option.some.inj h]
    norm_num
  have : 2 * n = 3 := by exact_mod_cast htwice
  omega

end ChainReplay.StateRecord
