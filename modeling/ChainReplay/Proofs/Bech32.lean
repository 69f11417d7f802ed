import Mathlib.Tactic.Ring
import ChainReplay.Bech32
import ChainReplay.Proofs.Bytes.Number
import ChainReplay.Proofs.Text.Numeral

/-! Regrouping bits. A row of groups stands for a number, and regrouping keeps this number, its last
bits apart that do not fill a group. -/

namespace ChainReplay.Bech32

open Text (numberOf numberOf_append)

/-- The groups that so many bits fill, first bit first. -/
def cut (width count all : Nat) : List Nat :=
  (List.range (count / width)).map fun i => all / 2 ^ (count - (i + 1) * width) % 2 ^ width

lemma lt_of_mem_cut {width count all g : Nat} (h : g ∈ cut width count all) : g < 2 ^ width := by
  obtain ⟨i, -, rfl⟩ := List.mem_map.mp h
  exact Nat.mod_lt _ (Nat.two_pow_pos _)

lemma length_cut (width count all : Nat) : (cut width count all).length = count / width := by
  rw [cut, List.length_map, List.length_range]

lemma numberOf_range (width left n N all : Nat) :
    numberOf (2 ^ width) N ((List.range n).map fun i =>
        all / 2 ^ (left + n * width - (i + 1) * width) % 2 ^ width) =
      N * 2 ^ (n * width) + all / 2 ^ left % 2 ^ (n * width) := by
  induction n generalizing left with
  | zero => simp [numberOf, Nat.mod_one]
  | succ n ih =>
    have hfirst : ((List.range n).map fun i =>
        all / 2 ^ (left + (n + 1) * width - (i + 1) * width) % 2 ^ width) =
          (List.range n).map fun i =>
            all / 2 ^ (left + width + n * width - (i + 1) * width) % 2 ^ width := by
      have hmul : (n + 1) * width = width + n * width := by rw [Nat.succ_mul, Nat.add_comm]
      simp only [hmul, ← Nat.add_assoc]
    have hlast : left + (n + 1) * width - (n + 1) * width = left := Nat.add_sub_cancel left _
    have hpow : 2 ^ ((n + 1) * width) = 2 ^ width * 2 ^ (n * width) := by
      rw [Nat.succ_mul, Nat.pow_add, Nat.mul_comm]
    have hdiv : all / 2 ^ (left + width) = all / 2 ^ left / 2 ^ width := by
      rw [Nat.pow_add, Nat.div_div_eq_div_mul]
    rw [List.range_succ, List.map_append, hfirst, numberOf_append, ih, List.map_singleton, hlast,
      hdiv, hpow, Nat.mod_mul]
    simp only [numberOf, List.foldl_cons, List.foldl_nil]
    ring

/-- The groups that are cut and the bits that are left stand for the same number as before. -/
lemma numberOf_cut (width N : Nat) {count all : Nat} (h : all < 2 ^ count) :
    numberOf (2 ^ width) N (cut width count all) * 2 ^ (count % width) + all % 2 ^ (count % width) =
      N * 2 ^ count + all := by
  have hsplit : count % width + count / width * width = count := Nat.mod_add_div' count width
  have hhigh : all / 2 ^ (count % width) < 2 ^ (count / width * width) := by
    apply Nat.div_lt_of_lt_mul
    rwa [← Nat.pow_add, hsplit]
  have hrange := numberOf_range width (count % width) (count / width) N all
  rw [hsplit, Nat.mod_eq_of_lt hhigh] at hrange
  rw [cut, hrange, Nat.add_mul, Nat.mul_assoc, ← Nat.pow_add,
    Nat.add_comm (count / width * width), hsplit, Nat.add_assoc, Nat.div_add_mod']

lemma regroup_cons (fromBits toBits pending bits value : Nat) (rest : List Nat) :
    regroup fromBits toBits pending bits (value :: rest) =
      let all := pending * 2 ^ fromBits + value
      let left := (bits + fromBits) % toBits
      let result := regroup fromBits toBits (all % 2 ^ left) left rest
      (cut toBits (bits + fromBits) all ++ result.1, result.2) := rfl

/-- What regrouping gives: full groups, fewer bits left than a group has, no bit lost or added. -/
structure Regrouped (fromBits toBits N pending bits : Nat) (values : List Nat)
    (result : List Nat × Nat × Nat) : Prop where
  group : ∀ g ∈ result.1, g < 2 ^ toBits
  short : result.2.2 < toBits
  fits : result.2.1 < 2 ^ result.2.2
  count : toBits * result.1.length + result.2.2 = bits + fromBits * values.length
  number : numberOf (2 ^ toBits) N result.1 * 2 ^ result.2.2 + result.2.1 =
    numberOf (2 ^ fromBits) (N * 2 ^ bits + pending) values

lemma regrouped (fromBits toBits : Nat) (hto : 0 < toBits) (values : List Nat)
    (hvalues : ∀ v ∈ values, v < 2 ^ fromBits) (N pending bits : Nat) (hbits : bits < toBits)
    (hpending : pending < 2 ^ bits) :
    Regrouped fromBits toBits N pending bits values
      (regroup fromBits toBits pending bits values) := by
  induction values generalizing N pending bits with
  | nil => exact ⟨nofun, hbits, hpending, Nat.add_comm _ _, rfl⟩
  | cons value rest ih =>
    obtain ⟨hvalue, hrest⟩ := List.forall_mem_cons.mp hvalues
    rw [regroup_cons]
    generalize hall : pending * 2 ^ fromBits + value = all
    have hlt : all < 2 ^ (bits + fromBits) := by
      rw [← hall, Nat.pow_add]
      exact Nat.lt_of_lt_of_le (Nat.add_lt_add_left hvalue _)
        (Nat.succ_mul pending _ ▸ Nat.mul_le_mul_right _ hpending)
    have hcut := numberOf_cut toBits N hlt
    have htail := ih hrest (numberOf (2 ^ toBits) N (cut toBits (bits + fromBits) all))
      (all % 2 ^ ((bits + fromBits) % toBits)) ((bits + fromBits) % toBits)
      (Nat.mod_lt _ hto) (Nat.mod_lt all (Nat.two_pow_pos _))
    refine ⟨fun g hg => ?_, htail.short, htail.fits, ?_, ?_⟩
    · rcases List.mem_append.mp hg with hg | hg
      · exact lt_of_mem_cut hg
      · exact htail.group g hg
    · have hcount := htail.count
      have hsplit := Nat.div_add_mod (bits + fromBits) toBits
      dsimp only
      rw [List.length_append, length_cut, List.length_cons, Nat.mul_add, Nat.mul_add]
      omega
    · rw [numberOf_append]
      refine htail.number.trans ?_
      have hstart : N * 2 ^ (bits + fromBits) + all =
          (N * 2 ^ bits + pending) * 2 ^ fromBits + value := by
        rw [← hall, Nat.pow_add]
        ring
      rw [hcut, hstart]
      rfl

lemma numberOf_toNat (bs : Bytes) : numberOf (2 ^ 8) 0 (bs.map (·.toNat)) = bs.toNat := by
  rw [numberOf, List.foldl_map]
  rfl

/-- Bytes stand in groups of five bits with less than a group of zeros behind them. -/
lemma groupsOfBytes_spec (bs : Bytes) :
    (∀ g ∈ groupsOfBytes bs, g < 2 ^ 5) ∧ ∃ spare < 5,
      5 * (groupsOfBytes bs).length = 8 * bs.length + spare ∧
        numberOf (2 ^ 5) 0 (groupsOfBytes bs) = bs.toNat * 2 ^ spare := by
  have hvalues : ∀ v ∈ bs.map (·.toNat), v < 2 ^ 8 := by
    intro v hv
    obtain ⟨b, -, rfl⟩ := List.mem_map.mp hv
    exact b.toNat_lt
  have h := regrouped 8 5 (by decide) _ hvalues 0 0 0 (by decide) (by decide)
  rw [groupsOfBytes]
  generalize regroup 8 5 0 0 (bs.map (·.toNat)) = result at h ⊢
  obtain ⟨groups, pending, bits⟩ := result
  obtain ⟨hgroup, hbits, hpending, hcount, hnumber⟩ := h
  simp only [Nat.zero_mul, Nat.zero_add, List.length_map] at hgroup hbits hpending hcount hnumber
  rw [numberOf_toNat] at hnumber
  dsimp only
  split
  case isTrue hzero =>
    subst hzero
    refine ⟨hgroup, 0, by decide, hcount, ?_⟩
    rw [Nat.pow_zero] at hpending hnumber
    omega
  case isFalse hzero =>
    have hpow : 2 ^ bits * 2 ^ (5 - bits) = 2 ^ 5 := by
      rw [← Nat.pow_add, Nat.add_sub_cancel' hbits.le]
    refine ⟨?_, 5 - bits, by omega, ?_, ?_⟩
    · intro g hg
      rcases List.mem_append.mp hg with hg | hg
      · exact hgroup g hg
      · rw [List.mem_singleton.mp hg, ← hpow]
        exact Nat.mul_lt_mul_of_pos_right hpending (Nat.two_pow_pos _)
    · rw [List.length_append, List.length_singleton]
      omega
    · rw [numberOf_append, ← hnumber, Nat.add_mul, Nat.mul_assoc, hpow]
      rfl

/-- The groups of five bits give the bytes back that they were made of. -/
theorem bytesOfGroups?_groupsOfBytes (bs : Bytes) : bytesOfGroups? (groupsOfBytes bs) = some bs := by
  obtain ⟨hgroup, spare, hspare, hlength, hnumber⟩ := groupsOfBytes_spec bs
  have h := regrouped 5 8 (by decide) _ hgroup 0 0 0 (by decide) (by decide)
  rw [bytesOfGroups?]
  generalize regroup 5 8 0 0 (groupsOfBytes bs) = result at h ⊢
  obtain ⟨values, pending, bits⟩ := result
  obtain ⟨hvalue, hbits, hpending, hcount, hvalues⟩ := h
  simp only [Nat.zero_mul, Nat.zero_add] at hvalue hbits hpending hcount hvalues
  have hbits : bits = spare := by omega
  subst hbits
  rw [hnumber] at hvalues
  have hzero : pending = 0 := by
    have hmod := congrArg (· % 2 ^ bits) hvalues
    simpa only [Nat.mul_add_mod_self_right, Nat.mod_eq_of_lt hpending, Nat.mul_mod_left] using hmod
  subst hzero
  have hback : (values.map UInt8.ofNat).map (·.toNat) = values := by
    rw [List.map_map]
    refine (List.map_congr_left fun v hv => ?_).trans (List.map_id values)
    exact UInt8.toNat_ofNat_of_lt' (hvalue v hv)
  have hsame : (Bytes.toNat (values.map .ofNat)) = bs.toNat := by
    rw [← numberOf_toNat, hback]
    exact Nat.eq_of_mul_eq_mul_right (Nat.two_pow_pos bits) hvalues
  have hcountEq : (values.map UInt8.ofNat).length = bs.length := by
    rw [List.length_map]
    omega
  dsimp only
  rw [if_pos (by simp [hspare]), ← Bytes.ofNat_toNat (values.map .ofNat), hsame, hcountEq,
    Bytes.ofNat_toNat]

/-! The checksum. The remainder of a row of values is linear over exclusive or, and behind any
values the six groups of the checksum bring it to one. -/

/-- What the generators add for the bits that are shifted out. -/
def feedback (top : Nat) : List (Nat × Nat) → Nat
  | [] => 0
  | (g, i) :: rest => (if top.testBit i then g else 0) ^^^ feedback top rest

lemma feedback_xor (a b : Nat) (gs : List (Nat × Nat)) :
    feedback (a ^^^ b) gs = feedback a gs ^^^ feedback b gs := by
  induction gs with
  | nil => exact (Nat.xor_self 0).symm
  | cons p rest ih =>
    obtain ⟨g, i⟩ := p
    have hbit : (if (a ^^^ b).testBit i then g else 0) =
        (if a.testBit i then g else 0) ^^^ (if b.testBit i then g else 0) := by
      rw [Nat.testBit_xor]
      cases a.testBit i <;> cases b.testBit i <;> simp
    rw [feedback, ih, hbit, feedback, feedback]
    ac_rfl

lemma feedback_zero (gs : List (Nat × Nat)) : feedback 0 gs = 0 := by
  induction gs with
  | nil => rfl
  | cons p rest ih => simp [feedback, ih]

lemma feedback_lt {n : Nat} (top : Nat) {gs : List (Nat × Nat)} (h : ∀ p ∈ gs, p.1 < 2 ^ n) :
    feedback top gs < 2 ^ n := by
  induction gs with
  | nil => exact Nat.two_pow_pos n
  | cons p rest ih =>
    obtain ⟨hp, hrest⟩ := List.forall_mem_cons.mp h
    rw [feedback]
    apply Nat.xor_lt_two_pow _ (ih hrest)
    split
    · exact hp
    · exact Nat.two_pow_pos n

lemma polymodStep_eq (sum value : Nat) :
    polymodStep sum value =
      sum % 2 ^ 25 * 2 ^ 5 ^^^ value ^^^ feedback (sum / 2 ^ 25) generators.zipIdx := by
  have hfold (gs : List (Nat × Nat)) (top acc : Nat) :
      gs.foldl (fun acc p => if top.testBit p.2 then acc ^^^ p.1 else acc) acc =
        acc ^^^ feedback top gs := by
    induction gs generalizing acc with
    | nil => exact (Nat.xor_zero acc).symm
    | cons p rest ih =>
      obtain ⟨g, i⟩ := p
      rw [List.foldl_cons, ih, feedback, ← Nat.xor_assoc]
      dsimp only
      split
      · rfl
      · rw [Nat.xor_zero]
  exact hfold _ _ _

lemma polymodStep_xor (s t v w : Nat) :
    polymodStep (s ^^^ t) (v ^^^ w) = polymodStep s v ^^^ polymodStep t w := by
  have hmul (a b : Nat) : (a ^^^ b) * 2 ^ 5 = a * 2 ^ 5 ^^^ b * 2 ^ 5 := by
    simp only [← Nat.shiftLeft_eq, Nat.shiftLeft_xor_distrib]
  simp only [polymodStep_eq, Nat.xor_mod_two_pow, Nat.xor_div_two_pow, hmul, feedback_xor]
  ac_rfl

lemma polymodStep_lt (sum : Nat) {value : Nat} (h : value < 2 ^ 30) :
    polymodStep sum value < 2 ^ 30 := by
  have hshifted : sum % 2 ^ 25 * 2 ^ 5 < 2 ^ 30 := by omega
  have hgenerators : ∀ p ∈ generators.zipIdx, p.1 < 2 ^ 30 := by decide
  rw [polymodStep_eq]
  exact Nat.xor_lt_two_pow (Nat.xor_lt_two_pow hshifted h) (feedback_lt _ hgenerators)

/-- As long as no bit is shifted out, groups of five bits are just put side by side. -/
lemma polymodStep_of_lt {sum value : Nat} (hsum : sum < 2 ^ 25) (hvalue : value < 2 ^ 5) :
    polymodStep sum value = sum * 2 ^ 5 + value := by
  have hside := Nat.div_add_mod' (sum * 2 ^ 5 ^^^ value) (2 ^ 5)
  rw [Nat.xor_div_two_pow, Nat.xor_mod_two_pow, Nat.mul_div_cancel _ (Nat.two_pow_pos 5),
    Nat.div_eq_of_lt hvalue, Nat.mul_mod_left, Nat.mod_eq_of_lt hvalue, Nat.xor_zero,
    Nat.zero_xor] at hside
  rw [polymodStep_eq, Nat.mod_eq_of_lt hsum, Nat.div_eq_of_lt hsum, feedback_zero, Nat.xor_zero,
    hside]

lemma foldl_polymodStep_of_lt {values : List Nat} (hvalues : ∀ v ∈ values, v < 2 ^ 5) {k sum : Nat}
    (hsum : sum < (2 ^ 5) ^ k) (hlength : k + values.length ≤ 6) :
    values.foldl polymodStep sum = numberOf (2 ^ 5) sum values := by
  induction values generalizing k sum with
  | nil => rfl
  | cons v rest ih =>
    obtain ⟨hv, hrest⟩ := List.forall_mem_cons.mp hvalues
    rw [List.length_cons] at hlength
    have hlt : sum < 2 ^ 25 := Nat.lt_of_lt_of_le hsum (by
      rw [← Nat.pow_mul]
      exact Nat.pow_le_pow_right (by decide) (by omega))
    have hnext : sum * 2 ^ 5 + v < (2 ^ 5) ^ (k + 1) := by
      rw [Nat.pow_succ]
      exact Nat.lt_of_lt_of_le (Nat.add_lt_add_left hv _)
        (Nat.succ_mul sum _ ▸ Nat.mul_le_mul_right _ hsum)
    rw [List.foldl_cons, polymodStep_of_lt hlt hv, ih hrest hnext (by omega)]
    rfl

lemma foldl_polymodStep_xor {vs ws : List Nat} (h : vs.length = ws.length) (s t : Nat) :
    (List.zipWith (· ^^^ ·) vs ws).foldl polymodStep (s ^^^ t) =
      vs.foldl polymodStep s ^^^ ws.foldl polymodStep t := by
  induction vs generalizing ws s t with
  | nil =>
    cases ws with
    | nil => rfl
    | cons w ws => cases h
  | cons v vs ih =>
    cases ws with
    | nil => cases h
    | cons w ws =>
      rw [List.zipWith_cons_cons, List.foldl_cons, polymodStep_xor, ih (Nat.succ.inj h)]
      rfl

lemma polymod_zeros_lt (values : List Nat) (n : Nat) :
    polymod (values ++ List.replicate (n + 1) 0) < 2 ^ 30 := by
  rw [polymod, List.replicate_succ', ← List.append_assoc, List.foldl_append]
  exact polymodStep_lt _ (by decide)

lemma checksum_eq (hrp : Text) (data : List Nat) :
    checksum hrp data =
      cut 5 30 (polymod (expandHrp hrp ++ data ++ List.replicate 6 0) ^^^ 1) := rfl

lemma lt_of_mem_checksum {hrp : Text} {data : List Nat} {d : Nat} (h : d ∈ checksum hrp data) :
    d < 2 ^ 5 := by
  rw [checksum_eq] at h
  exact lt_of_mem_cut h

lemma length_checksum (hrp : Text) (data : List Nat) : (checksum hrp data).length = 6 := rfl

/-- Data followed by its checksum passes the check. -/
theorem verifies_checksum (hrp : Text) (data : List Nat) :
    verifies hrp (data ++ checksum hrp data) = true := by
  generalize hvalues : expandHrp hrp ++ data = values
  have hlt : polymod (values ++ List.replicate 6 0) ^^^ 1 < 2 ^ 30 :=
    Nat.xor_lt_two_pow (polymod_zeros_lt values 5) (by decide)
  have hsum : (checksum hrp data).foldl polymodStep 0 =
      polymod (values ++ List.replicate 6 0) ^^^ 1 := by
    have hcut := numberOf_cut 5 0 hlt
    rw [foldl_polymodStep_of_lt (k := 0) (fun _ => lt_of_mem_checksum) (by decide)
      (length_checksum hrp data).le, checksum_eq, hvalues]
    simpa [Nat.mod_one] using hcut
  have hxor : List.zipWith (· ^^^ ·) (List.replicate 6 0) (checksum hrp data) =
      checksum hrp data := by
    rw [checksum_eq]
    simp [cut, List.range, List.range.loop, List.replicate]
  have hlength : (List.replicate 6 0).length = (checksum hrp data).length := rfl
  have hpolymod : polymod (expandHrp hrp ++ (data ++ checksum hrp data)) = 1 :=
    calc polymod (expandHrp hrp ++ (data ++ checksum hrp data))
      _ = (checksum hrp data).foldl polymodStep (polymod values) := by
        rw [← List.append_assoc, hvalues, polymod, List.foldl_append]
        rfl
      _ = (List.replicate 6 0).foldl polymodStep (polymod values) ^^^
          (checksum hrp data).foldl polymodStep 0 := by
        rw [← foldl_polymodStep_xor hlength, hxor, Nat.xor_zero]
      _ = polymod (values ++ List.replicate 6 0) ^^^
          (polymod (values ++ List.replicate 6 0) ^^^ 1) := by
        rw [hsum, polymod, polymod, List.foldl_append]
      _ = 1 := by rw [← Nat.xor_assoc, Nat.xor_self, Nat.zero_xor]
  rw [verifies, hpolymod]
  rfl

/-! Segregated witness addresses that are written are read back: the last separator is the one that
was put in, all digits have their values again, and nothing depends on the case of letters. -/

open Text

lemma lowerCaseOne_of_plain {c : CodePoint} (ha : isAllowed c = true) (hu : isUpper c = false) :
    lowerCaseOne c = [c] := by
  have hruns : ∀ r ∈ lowerCaseRuns, (r.1 = 65 ∧ r.2.1 = 90) ∨ 126 < r.1 := by decide +kernel
  simp only [isAllowed, isUpper, Bool.and_eq_true, Bool.and_eq_false_iff, decide_eq_true_eq,
    decide_eq_false_iff_not] at ha hu
  have hshift : lowerCaseShift? c = none := by
    rw [lowerCaseShift?, Option.map_eq_none_iff, List.find?_eq_none]
    rintro ⟨first, last, step, shift⟩ hr
    have hrun : (first = 65 ∧ last = 90) ∨ 126 < first := hruns _ hr
    simp only [Bool.and_eq_true, decide_eq_true_eq, not_and]
    omega
  rw [lowerCaseOne, if_neg (by omega), hshift]

/-- Printable ASCII without capital letters is its own lower case form. -/
lemma toLower_of_plain {t : Text} (ha : ∀ c ∈ t, isAllowed c = true)
    (hu : ∀ c ∈ t, isUpper c = false) : toLower t = t := by
  have hafter (before : Text) : lowerCaseAfter before t = t := by
    induction t generalizing before with
    | nil => rfl
    | cons c rest ih =>
      obtain ⟨hac, harest⟩ := List.forall_mem_cons.mp ha
      obtain ⟨huc, hurest⟩ := List.forall_mem_cons.mp hu
      have hsigma : c.val ≠ 0x3A3 := by
        simp only [isAllowed, Bool.and_eq_true, decide_eq_true_eq] at hac
        omega
      rw [lowerCaseAfter, if_neg hsigma, lowerCaseOne_of_plain hac huc, ih harest hurest]
      rfl
  exact hafter []

lemma splitLast_append {tail : Text} (h : ∀ c ∈ tail, c ≠ .ofChar '1') (hrp : Text) :
    splitLast (hrp ++ .ofChar '1' :: tail) = some (hrp, tail) := by
  have htail : ((hrp ++ .ofChar '1' :: tail).reverse.takeWhile (· != .ofChar '1')).reverse =
      tail := by
    have hreverse : ∀ c ∈ tail.reverse, (c != CodePoint.ofChar '1') = true := fun c hc =>
      bne_iff_ne.mpr (h c (List.mem_reverse.mp hc))
    rw [List.reverse_append, List.reverse_cons, List.append_assoc, List.singleton_append,
      List.takeWhile_append_of_pos hreverse, List.takeWhile_cons_of_neg (by simp), List.append_nil,
      List.reverse_reverse]
  rw [splitLast, htail]
  have hlength : (hrp ++ .ofChar '1' :: tail).length = hrp.length + tail.length + 1 := by
    rw [List.length_append, List.length_cons]
    rfl
  rw [if_pos (by omega), hlength]
  have htake : hrp.length + tail.length + 1 - tail.length - 1 = hrp.length := by omega
  rw [htake, List.take_left']
  rfl

def digit (d : Nat) : CodePoint := .ofChar ((charset[d]?).getD 'q')

lemma spell_eq (hrp : Text) (data : List Nat) :
    spell hrp data = hrp ++ .ofChar '1' :: (data ++ checksum hrp data).map digit := by
  have hone : ofString "1" = [.ofChar '1'] := rfl
  rw [spell, hone, ofChars, List.map_map, List.append_assoc, List.singleton_append]
  rfl

lemma digit_spec {d : Nat} (h : d < 2 ^ 5) :
    digitValue? (digit d) = some d ∧ isAllowed (digit d) = true ∧ isUpper (digit d) = false ∧
      digit d ≠ .ofChar '1' := by
  revert d
  decide

/-- Network parts in lower case that a text can have. -/
structure NetworkPart (hrp : Text) : Prop where
  ne_nil : hrp ≠ []
  length : hrp.length ≤ 83
  allowed : ∀ c ∈ hrp, isAllowed c = true
  lower : ∀ c ∈ hrp, isUpper c = false

section Spell

variable {hrp : Text} {data : List Nat}

lemma lt_of_mem_data (hdata : ∀ d ∈ data, d < 2 ^ 5) :
    ∀ d ∈ data ++ checksum hrp data, d < 2 ^ 5 := by
  intro d hd
  rcases List.mem_append.mp hd with hd | hd
  · exact hdata d hd
  · exact lt_of_mem_checksum hd

lemma plain_spell (h : NetworkPart hrp) (hdata : ∀ d ∈ data, d < 2 ^ 5) :
    (∀ c ∈ spell hrp data, isAllowed c = true) ∧ ∀ c ∈ spell hrp data, isUpper c = false := by
  have hplain : ∀ c ∈ spell hrp data, isAllowed c = true ∧ isUpper c = false := by
    intro c hc
    rw [spell_eq, List.mem_append, List.mem_cons, List.mem_map] at hc
    rcases hc with hc | rfl | ⟨d, hd, rfl⟩
    · exact ⟨h.allowed c hc, h.lower c hc⟩
    · exact ⟨rfl, rfl⟩
    · obtain ⟨-, hallowed, hupper, -⟩ := digit_spec (lt_of_mem_data hdata d hd)
      exact ⟨hallowed, hupper⟩
  exact ⟨fun c hc => (hplain c hc).1, fun c hc => (hplain c hc).2⟩

lemma toLower_spell (h : NetworkPart hrp) (hdata : ∀ d ∈ data, d < 2 ^ 5) :
    toLower (spell hrp data) = spell hrp data :=
  toLower_of_plain (plain_spell h hdata).1 (plain_spell h hdata).2

lemma splitLast_spell (hdata : ∀ d ∈ data, d < 2 ^ 5) (hrp : Text) :
    splitLast (spell hrp data) = some (hrp, (data ++ checksum hrp data).map digit) := by
  rw [spell_eq]
  apply splitLast_append
  intro c hc
  obtain ⟨d, hd, rfl⟩ := List.mem_map.mp hc
  exact (digit_spec (lt_of_mem_data hdata d hd)).2.2.2

lemma mapM_digit {ds : List Nat} (h : ∀ d ∈ ds, d < 2 ^ 5) :
    (ds.map digit).mapM digitValue? = some ds := by
  induction ds with
  | nil => rfl
  | cons d ds ih =>
    obtain ⟨hd, hds⟩ := List.forall_mem_cons.mp h
    rw [List.map_cons, List.mapM_cons, (digit_spec hd).1, ih hds]
    rfl

lemma split?_spell (h : NetworkPart hrp) (hdata : ∀ d ∈ data, d < 2 ^ 5) :
    split? (spell hrp data) = some (hrp, data) := by
  obtain ⟨hallowed, hupper⟩ := plain_spell h hdata
  have hall : (spell hrp data).all isAllowed = true := List.all_eq_true.mpr hallowed
  have hany : (spell hrp data).any isUpper = false :=
    List.any_eq_false.mpr fun c hc => Bool.eq_false_iff.mp (hupper c hc)
  have hlength : ((data ++ checksum hrp data).map digit).length = data.length + 6 := by
    rw [List.length_map, List.length_append, length_checksum]
  have hempty : hrp.isEmpty = false := List.isEmpty_eq_false_iff.mpr h.ne_nil
  have hshort : ¬83 < hrp.length := Nat.not_lt.mpr h.length
  rw [split?, hall, hany, toLower_spell h hdata, splitLast_spell hdata]
  simp only [Bool.not_true, Bool.false_and, Bool.or_self, Bool.false_eq_true, ↓reduceIte, hempty,
    hlength, hshort, decide_false, mapM_digit (lt_of_mem_data hdata), verifies_checksum,
    Nat.not_lt.mpr (Nat.le_add_left 6 data.length)]
  rw [List.length_append, length_checksum, Nat.add_sub_cancel, List.take_left' rfl]

end Spell

/-- Programs that a witness version can have. -/
def FitsVersion (version : Nat) (program : Bytes) : Prop :=
  version ≤ 16 ∧ 2 ≤ program.length ∧ program.length ≤ 40 ∧
    (version = 0 → program.length = 20 ∨ program.length = 32)

lemma lt_of_mem_groups {version : Nat} {program : Bytes} (hfits : FitsVersion version program) :
    ∀ d ∈ version :: groupsOfBytes program, d < 2 ^ 5 := by
  refine List.forall_mem_cons.mpr ⟨?_, (groupsOfBytes_spec program).1⟩
  have := hfits.1
  omega

/-- A witness program is read back from its text form, for every network and version. -/
theorem decode?_spell {hrp : Text} (h : NetworkPart hrp) {version : Nat} {program : Bytes}
    (hfits : FitsVersion version program) :
    decode? hrp (spell hrp (version :: groupsOfBytes program)) = some (version, program) := by
  have hdata := lt_of_mem_groups hfits
  obtain ⟨hversion, hshort, hlong, hzero⟩ := hfits
  rw [decode?, split?_spell h hdata]
  dsimp only
  rw [if_neg (not_not_intro rfl), bytesOfGroups?_groupsOfBytes]
  dsimp only
  rw [if_neg (by simp; omega), if_neg (by simp; omega)]

/-- What starts with a small letter behind the separator has a text form only for a network part in
lower case. -/
lemma networkPart_of_decode? {hrp : Text} {version : Nat} {groups : List Nat}
    (hdata : ∀ d ∈ version :: groups, d < 2 ^ 5) (hletter : isLower (digit version) = true)
    (h : (decode? hrp (spell hrp (version :: groups))).isSome = true) : NetworkPart hrp := by
  generalize ht : spell hrp (version :: groups) = t at h
  have hmem : ∀ c ∈ hrp, c ∈ t := fun c hc => by
    rw [← ht, spell_eq]
    exact List.mem_append_left _ hc
  have hlower : t.any isLower = true := by
    rw [← ht, spell_eq, List.any_eq_true]
    exact ⟨_, by simp, hletter⟩
  rw [decode?] at h
  cases hsplit : split? t with
  | none => simp [hsplit] at h
  | some found =>
    obtain ⟨part, data⟩ := found
    have hpart : part = hrp := by
      by_contra hne
      cases data <;> simp [hsplit, hne] at h
    subst hpart
    rw [split?] at hsplit
    split at hsplit
    case isTrue => cases hsplit
    case isFalse hplain =>
      simp only [hlower, Bool.and_true, Bool.or_eq_true, Bool.not_eq_true', not_or,
        Bool.not_eq_false, Bool.not_eq_true] at hplain
      obtain ⟨hallowed, hupper⟩ := hplain
      rw [List.all_eq_true] at hallowed
      rw [List.any_eq_false] at hupper
      have hupper : ∀ c ∈ t, isUpper c = false := fun c hc => Bool.eq_false_iff.mpr (hupper c hc)
      rw [toLower_of_plain hallowed hupper, ← ht, splitLast_spell hdata] at hsplit
      dsimp only at hsplit
      split at hsplit
      case isTrue => cases hsplit
      case isFalse hlength =>
        simp only [Bool.or_eq_true, decide_eq_true_eq, not_or, List.isEmpty_iff] at hlength
        exact ⟨hlength.1.1, Nat.not_lt.mp hlength.1.2, fun c hc => hallowed c (hmem c hc),
          fun c hc => hupper c (hmem c hc)⟩

/-- Which network parts a witness program has a text form for, and which text this is. -/
theorem encode?_eq_some_iff (hrp : Text) {version : Nat} {program : Bytes}
    (hfits : FitsVersion version program) (hletter : isLower (digit version) = true) (t : Text) :
    encode? hrp version program = some t ↔
      NetworkPart hrp ∧ t = spell hrp (version :: groupsOfBytes program) := by
  rw [encode?]
  constructor
  · intro h
    split at h
    case isTrue hdecode =>
      cases h
      exact ⟨networkPart_of_decode? (lt_of_mem_groups hfits) hletter hdecode, rfl⟩
    case isFalse => cases h
  · rintro ⟨hpart, rfl⟩
    rw [decode?_spell hpart hfits]
    rfl

end ChainReplay.Bech32
