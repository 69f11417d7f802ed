import Mathlib.Tactic.Lemma
import ChainReplay.Bytes.Base64

/-! Base64 texts read back as the bytes that they were written for, and so do texts that differ from
them in nothing but the spare bits of the last digit. -/

namespace ChainReplay.Base64

lemma value?_digit : ∀ n < 64, value? (digit n) = some n := by decide +kernel

lemma digit_ne_pad : ∀ n < 64, digit n ≠ '=' := by decide +kernel

lemma ofNat_eq {n : Nat} {b : UInt8} (h : n % 256 = b.toNat) : UInt8.ofNat n = b := by
  apply UInt8.toNat_inj.mp
  rw [UInt8.toNat_ofNat', h]

/-- Digits and pads that stand for the bytes. -/
lemma encode_eq (bs : Bytes) :
    ∃ ds pads, encode bs = ds.map digit ++ List.replicate pads '=' ∧ (∀ d ∈ ds, d < 64) ∧
      decodeDigits ds pads = some bs ∧ (ds = [] → pads = 0) := by
  induction bs using encode.induct with
  | case1 => exact ⟨[], 0, rfl, nofun, rfl, fun _ => rfl⟩
  | case2 a =>
    have ha := a.toNat_lt
    refine ⟨[a.toNat / 4, a.toNat % 4 * 16], 2, rfl, ?_, ?_, nofun⟩
    · simp only [List.forall_mem_cons, List.not_mem_nil, false_implies, implies_true, and_true]
      omega
    · rw [decodeDigits, ofNat_eq (b := a) (by omega)]
  | case3 a b =>
    have ha := a.toNat_lt
    have hb := b.toNat_lt
    refine ⟨[a.toNat / 4, a.toNat % 4 * 16 + b.toNat / 16, b.toNat % 16 * 4], 1, rfl, ?_, ?_, nofun⟩
    · simp only [List.forall_mem_cons, List.not_mem_nil, false_implies, implies_true, and_true]
      omega
    · rw [decodeDigits, ofNat_eq (b := a) (by omega), ofNat_eq (b := b) (by omega)]
  | case4 a b c rest ih =>
    have ha := a.toNat_lt
    have hb := b.toNat_lt
    have hc := c.toNat_lt
    obtain ⟨ds, pads, hds, hlt, hdecode, -⟩ := ih
    refine ⟨a.toNat / 4 :: (a.toNat % 4 * 16 + b.toNat / 16) :: (b.toNat % 16 * 4 + c.toNat / 64)
      :: c.toNat % 64 :: ds, pads, ?_, ?_, ?_, nofun⟩
    · rw [encode, hds]
      rfl
    · simp only [List.forall_mem_cons]
      exact ⟨by omega, by omega, by omega, by omega, hlt⟩
    · rw [decodeDigits, hdecode, ofNat_eq (b := a) (by omega), ofNat_eq (b := b) (by omega),
        ofNat_eq (b := c) (by omega)]
      rfl

lemma mapM_value? {ds : List Nat} (h : ∀ d ∈ ds, d < 64) :
    (ds.map digit).mapM value? = some ds := by
  induction ds with
  | nil => rfl
  | cons d ds ih =>
    rw [List.forall_mem_cons] at h
    simp [value?_digit d h.1, ih h.2]

theorem decode?_encode (bs : Bytes) : decode? (encode bs) = some bs := by
  obtain ⟨ds, pads, hds, hlt, hdecode, hpads⟩ := encode_eq bs
  have hdigits : ∀ c ∈ ds.map digit, (c != '=') = true := by
    simp only [List.forall_mem_map, bne_iff_ne]
    exact fun d hd => digit_ne_pad d (hlt d hd)
  have hdata : (ds.map digit ++ List.replicate pads '=').takeWhile (· != '=') = ds.map digit := by
    rw [List.takeWhile_append_of_pos hdigits]
    cases pads <;> simp [List.replicate_succ]
  have hpadded : ((List.replicate pads '=').isEmpty || !(ds.map digit).isEmpty) = true := by
    cases ds with
    | nil => simp [hpads rfl]
    | cons d ds => simp
  rw [decode?, hds]
  simp only [hdata, List.drop_left, hpadded]
  simp [mapM_value? hlt, hdecode]

lemma digit_of_value? {c : Char} {n : Nat} (h : value? c = some n) : n < 64 ∧ digit n = c := by
  have hupper : ∀ m < 26, digit m = Char.ofNat (m + 65) := by decide +kernel
  have hlower : ∀ m < 26, digit (m + 26) = Char.ofNat (m + 97) := by decide +kernel
  have hdecimal : ∀ m < 10, digit (m + 52) = Char.ofNat (m + 48) := by decide +kernel
  have hrange {a b : Char} (hc : (decide (a ≤ c) && decide (c ≤ b)) = true) :
      a.toNat ≤ c.toNat ∧ c.toNat ≤ b.toNat := by
    simp only [Bool.and_eq_true, decide_eq_true_eq, Char.le_def] at hc
    exact hc
  rw [value?] at h
  split at h
  case isTrue hc =>
    obtain ⟨hlow, hhigh⟩ : 65 ≤ c.toNat ∧ c.toNat ≤ 90 := hrange hc
    cases h
    refine ⟨by omega, ?_⟩
    rw [hupper _ (by omega), Nat.sub_add_cancel hlow, Char.ofNat_toNat]
  split at h
  case isTrue hc =>
    obtain ⟨hlow, hhigh⟩ : 97 ≤ c.toNat ∧ c.toNat ≤ 122 := hrange hc
    obtain ⟨m, hm⟩ : ∃ m, c.toNat = m + 97 := ⟨c.toNat - 97, by omega⟩
    cases h
    have hn : c.toNat - 71 = m + 26 := by omega
    refine ⟨by omega, ?_⟩
    rw [hn, hlower m (by omega), ← hm, Char.ofNat_toNat]
  split at h
  case isTrue hc =>
    obtain ⟨hlow, hhigh⟩ : 48 ≤ c.toNat ∧ c.toNat ≤ 57 := hrange hc
    obtain ⟨m, hm⟩ : ∃ m, c.toNat = m + 48 := ⟨c.toNat - 48, by omega⟩
    cases h
    have hn : c.toNat + 4 = m + 52 := by omega
    refine ⟨by omega, ?_⟩
    rw [hn, hdecimal m (by omega), ← hm, Char.ofNat_toNat]
  split at h
  case isTrue hc =>
    cases h
    exact ⟨by decide, by rw [hc]; decide +kernel⟩
  split at h
  case isTrue hc =>
    cases h
    exact ⟨by decide, by rw [hc]; decide +kernel⟩
  case isFalse => cases h

lemma mapM_value?_eq_some {cs : List Char} {ds : List Nat} (h : cs.mapM value? = some ds) :
    cs = ds.map digit ∧ ∀ d ∈ ds, d < 64 := by
  induction cs generalizing ds with
  | nil =>
    cases h
    exact ⟨rfl, nofun⟩
  | cons c cs ih =>
    rw [List.mapM_cons] at h
    obtain ⟨d, hd, h⟩ := Option.bind_eq_some_iff.mp h
    obtain ⟨es, hes, h⟩ := Option.bind_eq_some_iff.mp h
    cases h
    obtain ⟨hlt, rfl⟩ := digit_of_value? hd
    obtain ⟨rfl, hall⟩ := ih hes
    exact ⟨rfl, List.forall_mem_cons.mpr ⟨hlt, hall⟩⟩

/-- The text that is written for the bytes, two of which are left behind the groups of three, but
that the two spare bits of the last digit may be set. -/
def Spells (cs : List Char) (bs : Bytes) : Prop :=
  ∃ front k j, k < 16 ∧ j < 4 ∧ encode bs = front ++ [digit (4 * k), '='] ∧
    cs = front ++ [digit (4 * k + j), '=']

lemma spells_of_decodeDigits {ds : List Nat} {pads : Nat} {bs : Bytes} (hds : ∀ d ∈ ds, d < 64)
    (hbs : bs.length % 3 = 2) (h : decodeDigits ds pads = some bs) :
    pads = 1 ∧ Spells (ds.map digit ++ ['=']) bs := by
  induction ds, pads using decodeDigits.induct generalizing bs with
  | case1 =>
    cases h
    cases hbs
  | case2 a b =>
    cases h
    cases hbs
  | case3 a b c =>
    simp only [List.forall_mem_cons] at hds
    cases h
    refine ⟨rfl, [digit a, digit b], c / 4, c % 4, by omega, by omega, ?_, ?_⟩
    · rw [encode]
      simp only [UInt8.toNat_ofNat', List.cons_append, List.nil_append, List.cons.injEq, and_true]
      refine ⟨?_, ?_, ?_⟩ <;> congr 1 <;> omega
    · rw [Nat.div_add_mod]
      rfl
  | case4 a b c d rest pads ih =>
    simp only [List.forall_mem_cons] at hds
    obtain ⟨ha, hb, hc, hd, hrest⟩ := hds
    rw [decodeDigits] at h
    obtain ⟨tail, htail, rfl⟩ := Option.map_eq_some_iff.mp h
    rw [List.length_cons, List.length_cons, List.length_cons] at hbs
    obtain ⟨hpads, front, k, j, hk, hj, hencode, hspelled⟩ := ih hrest (by omega) htail
    refine ⟨hpads, digit a :: digit b :: digit c :: digit d :: front, k, j, hk, hj, ?_, ?_⟩
    · rw [encode, hencode]
      simp only [UInt8.toNat_ofNat', List.cons_append, List.cons.injEq, and_true]
      refine ⟨?_, ?_, ?_, ?_⟩ <;> congr 1 <;> omega
    · simp only [List.map_cons, List.cons_append, hspelled]
  | case5 ds pads hnil hquad hpair htriple =>
    rw [decodeDigits.eq_5 ds pads hnil hquad hpair htriple] at h
    cases h

/-- The spare bits of the last digit make no difference. -/
lemma decodeDigits_spare {bs : Bytes} (hbs : bs.length % 3 = 2) :
    ∃ ds k, encode bs = ds.map digit ++ [digit (4 * k), '='] ∧ (∀ d ∈ ds, d < 64) ∧ k < 16 ∧
      ∀ j < 4, decodeDigits (ds ++ [4 * k + j]) 1 = some bs := by
  induction bs using encode.induct with
  | case1 => cases hbs
  | case2 a => cases hbs
  | case3 a b =>
    have ha := a.toNat_lt
    have hb := b.toNat_lt
    refine ⟨[a.toNat / 4, a.toNat % 4 * 16 + b.toNat / 16], b.toNat % 16, ?_, ?_, by omega,
      fun j hj => ?_⟩
    · rw [encode, Nat.mul_comm 4]
      rfl
    · simp only [List.forall_mem_cons, List.not_mem_nil, false_implies, implies_true, and_true]
      omega
    · rw [List.cons_append, List.cons_append, List.nil_append, decodeDigits,
        ofNat_eq (b := a) (by omega), ofNat_eq (b := b) (by omega)]
  | case4 a b c rest ih =>
    have ha := a.toNat_lt
    have hb := b.toNat_lt
    have hc := c.toNat_lt
    rw [List.length_cons, List.length_cons, List.length_cons] at hbs
    obtain ⟨ds, k, hds, hlt, hk, hdecode⟩ := ih (by omega)
    refine ⟨a.toNat / 4 :: (a.toNat % 4 * 16 + b.toNat / 16) :: (b.toNat % 16 * 4 + c.toNat / 64)
      :: c.toNat % 64 :: ds, k, ?_, ?_, hk, fun j hj => ?_⟩
    · rw [encode, hds]
      rfl
    · simp only [List.forall_mem_cons]
      exact ⟨by omega, by omega, by omega, by omega, hlt⟩
    · simp only [List.cons_append]
      rw [decodeDigits, hdecode j hj, ofNat_eq (b := a) (by omega), ofNat_eq (b := b) (by omega),
        ofNat_eq (b := c) (by omega)]
      rfl

lemma decode?_digits {ds : List Nat} (hds : ∀ d ∈ ds, d < 64) (hne : ds ≠ []) :
    decode? (ds.map digit ++ ['=']) = decodeDigits ds 1 := by
  have hdigits : ∀ c ∈ ds.map digit, (c != '=') = true := by
    simp only [List.forall_mem_map, bne_iff_ne]
    exact fun d hd => digit_ne_pad d (hds d hd)
  have hdata : (ds.map digit ++ ['=']).takeWhile (· != '=') = ds.map digit := by
    rw [List.takeWhile_append_of_pos hdigits]
    simp
  rw [decode?]
  simp only [hdata, List.drop_left]
  simp [mapM_value? hds, hne]

theorem decode?_eq_some_iff {cs : List Char} {bs : Bytes} (hbs : bs.length % 3 = 2) :
    decode? cs = some bs ↔ Spells cs bs := by
  constructor
  · intro h
    simp only [decode?] at h
    generalize hdata : cs.takeWhile (· != '=') = data at h
    split at h
    case isFalse => cases h
    case isTrue hpads =>
      simp only [Bool.and_eq_true] at hpads
      obtain ⟨ds, hds, h⟩ := Option.bind_eq_some_iff.mp h
      obtain ⟨rfl, hlt⟩ := mapM_value?_eq_some hds
      obtain ⟨hone, hspells⟩ := spells_of_decodeDigits hlt hbs h
      obtain ⟨pad, hpad⟩ := List.length_eq_one_iff.mp hone
      rw [hpad] at hpads
      obtain rfl : pad = '=' := by simpa using hpads.1
      have hwhole : cs = ds.map digit ++ ['='] := by
        rw [← hpad, ← hdata]
        exact (List.prefix_iff_eq_append.mp (List.takeWhile_prefix _)).symm
      rw [hwhole]
      exact hspells
  · rintro ⟨front, k, j, hk, hj, hencode, rfl⟩
    obtain ⟨ds, k', hds, hlt, hk', hdecode⟩ := decodeDigits_spare hbs
    rw [hencode] at hds
    obtain ⟨rfl, hlast⟩ := List.append_inj' hds rfl
    have hvalue := congrArg value? (List.cons.inj hlast).1
    rw [value?_digit _ (by omega), value?_digit _ (by omega)] at hvalue
    obtain rfl : k = k' := by
      have := Option.some.inj hvalue
      omega
    have hall : ∀ d ∈ ds ++ [4 * k + j], d < 64 := by
      rw [List.forall_mem_append, List.forall_mem_singleton]
      exact ⟨hlt, by omega⟩
    have hread := decode?_digits hall (by simp)
    rw [List.map_append, List.append_assoc] at hread
    exact hread.trans (hdecode j hj)

end ChainReplay.Base64
