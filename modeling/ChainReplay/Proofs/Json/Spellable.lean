import ChainReplay.Json.Loose
import ChainReplay.Proofs.Binary64
import ChainReplay.Proofs.Json.Runs
import ChainReplay.Proofs.Table
import ChainReplay.Proofs.Text.Decimal

/-! The integers that stand in a document that was read have few enough digits to be written. -/

namespace ChainReplay.Json

open Numeral

inductive Spellable : Json → Prop
  | null : Spellable .null
  | bool (b : Bool) : Spellable (.bool b)
  | int {n : Int} (hn : isWritable n = true) : Spellable (.int n)
  | real {x : Binary64} (hx : ∀ n, x.truncate? = some n → isWritable n = true) :
    Spellable (.real x)
  | text (t : Text) : Spellable (.text t)
  | array {items : List Json} (hitems : ∀ item ∈ items, Spellable item) : Spellable (.array items)
  | object {members : List (Text × Json)} (hmembers : ∀ entry ∈ members, Spellable entry.2) :
    Spellable (.object members)

lemma Spellable.isWritable {j : Json} (hj : j.Spellable) {n : Int} (h : j.integer = .ok n) :
    isWritable n = true := by
  cases hj with
  | null => cases h
  | bool b =>
    cases h
    cases b <;> decide +kernel
  | int hn =>
    cases h
    exact hn
  | @real x hx =>
    rw [integer.eq_def] at h
    dsimp only at h
    split at h
    case h_1 hn =>
      cases h
      exact hx _ hn
    case h_2 => cases h
    case h_3 => cases h
  | text t =>
    rw [integer] at h
    split at h
    case h_1 hn =>
      cases h
      exact isWritable_of_integer? hn
    case h_2 => cases h
  | array => cases h
  | object => cases h

lemma Spellable.member {j : Json} (hj : j.Spellable) {name : Text} {v : Json}
    (h : j.member? name = some v) : v.Spellable := by
  cases hj with
  | @object members hmembers => exact hmembers _ (Table.mem_of_find? h)
  | _ => cases h

lemma Spellable.elements {j : Json} (hj : j.Spellable) {items : List Json}
    (h : j.elements = .ok items) : ∀ item ∈ items, item.Spellable := by
  cases hj with
  | array hitems =>
    cases h
    exact hitems
  | text t =>
    cases h
    intro item hitem
    obtain ⟨c, -, rfl⟩ := List.mem_map.mp hitem
    exact .text [c]
  | @object members hmembers =>
    cases h
    intro item hitem
    obtain ⟨entry, -, rfl⟩ := List.mem_map.mp hitem
    exact .text entry.1
  | _ => cases h

lemma isWritable_of_ofDecimal {negative : Bool} {digits : Nat} {exponent n : Int}
    (h : (Binary64.ofDecimal negative digits exponent).truncate? = some n) :
    isWritable n = true := by
  have hbound : Binary64.partBound < 10 ^ mostDigits := by decide +kernel
  exact (isWritable_iff n).mpr (Nat.lt_of_le_of_lt (Binary64.natAbs_of_ofDecimal h) hbound)

lemma digitsValue_lt {cs : List Char} (hcs : ∀ c ∈ cs, isDigit c = true) :
    digitsValue cs < 10 ^ cs.length := by
  have hfold : ∀ n, cs.foldl (fun n c => n * 10 + (c.toNat - 48)) n < (n + 1) * 10 ^ cs.length := by
    induction cs with
    | nil => simp
    | cons c cs ih =>
      intro n
      have hc : c.toNat - 48 < 10 := by
        have hdigit := hcs c List.mem_cons_self
        simp only [isDigit, Bool.and_eq_true, decide_eq_true_eq, Char.le_def] at hdigit
        have hhigh : c.toNat ≤ 57 := hdigit.2
        omega
      have hnext := ih (fun d hd => hcs d (List.mem_cons_of_mem c hd)) (n * 10 + (c.toNat - 48))
      rw [List.foldl_cons, List.length_cons, Nat.pow_succ', ← Nat.mul_assoc]
      exact Nat.lt_of_lt_of_le hnext (Nat.mul_le_mul_right _ (by omega))
  simpa only [digitsValue, Nat.zero_add, Nat.one_mul] using hfold 0

lemma isDigit_of_readWhole {cs whole rest : List Char} (h : readWhole cs = some (whole, rest)) :
    ∀ c ∈ whole, isDigit c = true := by
  rw [readWhole.eq_def] at h
  split at h
  case h_1 =>
    cases h
    simp [isDigit]
  case h_2 =>
    split at h
    case isTrue =>
      cases h
      intro c hc
      exact List.all_eq_true.mp List.all_takeWhile c hc
    case isFalse => cases h
  case h_3 => cases h

lemma Spellable.of_readMagnitude {negative : Bool} {cs rest : List Char} {j : Json}
    (h : readMagnitude negative cs = .ok (j, rest)) : j.Spellable := by
  rw [readMagnitude] at h
  cases hwhole : readWhole cs with
  | none =>
    rw [hwhole] at h
    cases h
  | some found =>
    obtain ⟨whole, behind⟩ := found
    rw [hwhole] at h
    dsimp only at h
    split at h
    case isTrue =>
      split at h
      case isTrue => cases h
      case isFalse hlength =>
        cases h
        have hlt := digitsValue_lt (isDigit_of_readWhole hwhole)
        have hpow := Nat.pow_le_pow_right (by decide : 0 < 10) (Nat.not_lt.mp hlength)
        refine .int ((isWritable_iff _).mpr (Nat.lt_of_lt_of_le ?_ hpow))
        cases negative <;> simpa using hlt
    case isFalse =>
      cases h
      exact .real fun n => isWritable_of_ofDecimal

lemma Spellable.of_readNumber {cs rest : List Char} {j : Json}
    (h : readNumber cs = .ok (j, rest)) : j.Spellable := by
  rw [readNumber.eq_def] at h
  split at h
  case h_1 | h_2 | h_3 =>
    cases h
    exact .real fun n hn => absurd hn (Option.some_ne_none n).symm
  case h_4 | h_5 => exact of_readMagnitude h

lemma Spellable.of_readScalar {cs rest : List Char} {j : Json}
    (h : readScalar cs = .ok (j, rest)) : j.Spellable := by
  rw [readScalar.eq_def] at h
  split at h
  case h_1 =>
    split at h
    case h_1 => cases h
    case h_2 =>
      cases h
      exact .text _
  case h_2 =>
    cases h
    exact .null
  case h_3 | h_4 =>
    cases h
    exact .bool _
  case h_5 => exact of_readNumber h

namespace Opened

/-- What has been read of an array or an object so far. -/
def Spellable : Opened → Prop
  | array items => ∀ item ∈ items, item.Spellable
  | object members => ∀ entry ∈ members, entry.2.Spellable

lemma Spellable.of_opening {k : Opened} {cs rest : List Char} (h : opening cs = some (k, rest)) :
    k.Spellable := by
  rw [opening.eq_def] at h
  split at h
  case h_1 | h_2 =>
    cases h
    exact fun _ h => absurd h List.not_mem_nil
  case h_3 => cases h

lemma Spellable.value {k : Opened} (hk : k.Spellable) : k.value.Spellable := by
  cases k with
  | array items => exact .array fun item hitem => hk item (List.mem_reverse.mp hitem)
  | object members => exact .object hk

lemma Spellable.add {k : Opened} (hk : k.Spellable) {cs rest : List Char} {add : Json → Opened}
    (h : k.front? cs = some (add, rest)) {v : Json} (hv : v.Spellable) : (add v).Spellable := by
  cases k with
  | array items =>
    cases h
    exact List.forall_mem_cons.mpr ⟨hv, hk⟩
  | object members =>
    obtain ⟨⟨name, after⟩, -, h⟩ := Option.map_eq_some_iff.mp h
    cases h
    intro entry hentry
    rcases Table.mem_of_mem_insert hentry with rfl | hentry
    · exact hv
    · exact hk entry hentry

end Opened

theorem Reads.spellable {d : Nat} {k : Option Opened} {cs : List Char} {j : Json}
    {rest : List Char} (h : Reads d k cs (.ok (j, rest))) (hk : ∀ o ∈ k, o.Spellable) :
    j.Spellable := by
  generalize hr : Except.ok (j, rest) = r at h
  induction h generalizing j rest with
  | scalar => exact .of_readScalar hr.symm
  | tooDeep | noEntry | failed | stuck => cases hr
  | empty hopening =>
    cases hr
    exact (Opened.Spellable.of_opening hopening).value
  | opened hopening hclosing hrest ih =>
    exact ih (fun o ho => Option.mem_some.mp ho ▸ .of_opening hopening) hr
  | next hfront hvalue hcomma hrest ihvalue ihrest =>
    have hv := ihvalue nofun rfl
    exact ihrest (fun o ho => Option.mem_some.mp ho ▸ (hk _ rfl).add hfront hv) hr
  | last hfront hvalue hcomma hclosing ih =>
    cases hr
    exact ((hk _ rfl).add hfront (ih nofun rfl)).value

theorem spellable_of_parse {cs : List Char} {j : Json} (h : parse cs = .ok j) : j.Spellable := by
  obtain ⟨rest, hread, -⟩ := parse_eq_ok_iff.mp h
  exact hread.spellable nofun

end ChainReplay.Json
