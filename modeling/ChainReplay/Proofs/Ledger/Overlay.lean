import Mathlib.Data.List.Forall2
import ChainReplay.Proofs.Execution.Sharing

/-! Two ledgers that differ in the storage of some contracts. The second has the storage that a
table says, and that of the first where the table says nothing. -/

namespace ChainReplay

namespace Table

variable {κ α : Type} [DecidableEq κ]

@[simp] lemma modify_id (t : Table κ α) (k : κ) : modify t k id = t := by
  induction t with
  | nil => rfl
  | cons entry t ih =>
    rw [modify_cons, ih]
    by_cases h : entry.1 = k
    · rw [if_pos h, ← h]
      rfl
    · rw [if_neg h]

lemma forall₂_modify {R Q : κ × α → κ × α → Prop} {t u : Table κ α} {k : κ} {f g : α → α}
    (hkey : ∀ e d, R e d → d.1 = e.1) (h : List.Forall₂ R t u)
    (hself : ∀ e d, R e d → e.1 = k → Q (k, f e.2) (k, g d.2))
    (hother : ∀ e d, R e d → e.1 ≠ k → Q e d) :
    List.Forall₂ Q (modify t k f) (modify u k g) := by
  induction h with
  | nil => exact .nil
  | @cons e d t u hed _ ih =>
    rw [modify_cons, modify_cons, hkey e d hed]
    by_cases he : e.1 = k
    · rw [if_pos he, if_pos he]
      exact .cons (hself e d hed he) ih
    · rw [if_neg he, if_neg he]
      exact .cons (hother e d hed he) ih

end Table

structure Twin (P : Table Address Storage) (e d : Address × Contract) : Prop where
  key : d.1 = e.1
  alike : ∃ s, d.2 = { e.2 with states := s }
  same : P.find? e.1 = none → d.2 = e.2
  address : e.2.address = e.1
  deployed : e.2.deployed = true

structure Overlay (P : Table Address Storage) (l m : Ledger) : Prop where
  ledger : ∃ t, m = { l with contracts := t }
  contracts : List.Forall₂ (Twin P) l.contracts m.contracts
  storage : ∀ a s, P.find? a = some s → m.storage? a = some s

lemma Twin.find? {P : Table Address Storage} {t u : Table Address Contract}
    (h : List.Forall₂ (Twin P) t u) (a : Address) :
    (t.find? a = none ∧ u.find? a = none) ∨
      ∃ c s, t.find? a = some c ∧ u.find? a = some { c with states := s } ∧ c.address = a ∧
        (P.find? a = none → s = c.states) := by
  induction h with
  | nil => exact .inl ⟨rfl, rfl⟩
  | @cons e d t u hed _ ih =>
    rw [Table.find?_cons, Table.find?_cons, hed.key]
    by_cases he : e.1 = a
    · rw [if_pos he, if_pos he]
      obtain ⟨s, hs⟩ := hed.alike
      refine .inr ⟨e.2, s, rfl, by rw [hs], hed.address.trans he, fun hnone => ?_⟩
      have hstates := congrArg Contract.states (hed.same (he ▸ hnone))
      rw [hs] at hstates
      exact hstates
    · rw [if_neg he, if_neg he]
      exact ih

namespace Overlay

variable {P : Table Address Storage} {l m : Ledger}

lemma refl (hset : l.Settled) (hkey : l.Keyed) : Overlay [] l l where
  ledger := ⟨l.contracts, rfl⟩
  contracts := List.forall₂_same.mpr fun e he =>
    ⟨rfl, ⟨e.2.states, rfl⟩, fun _ => rfl, hkey e he, hset e he⟩
  storage := fun _ _ h => nomatch h

lemma eq (h : Overlay [] l m) : l = m := by
  obtain ⟨t, rfl⟩ := h.ledger
  have heq : l.contracts = t := by
    refine List.forall₂_eq_eq_eq ▸ h.contracts.imp fun e d hed => ?_
    exact Prod.ext hed.key.symm (hed.same rfl).symm
  rw [← heq]

lemma settled_left (h : Overlay P l m) : l.Settled :=
  ((List.forall₂_and_left (p := fun e => e.2.deployed = true) (R := Twin P) _ _).mp
    (h.contracts.imp fun _ _ hed => ⟨hed.deployed, hed⟩)).1

lemma keyed_left (h : Overlay P l m) : l.Keyed :=
  ((List.forall₂_and_left (p := fun e => e.2.address = e.1) (R := Twin P) _ _).mp
    (h.contracts.imp fun _ _ hed => ⟨hed.address, hed⟩)).1

lemma settled_right (h : Overlay P l m) : m.Settled := by
  have hflip : List.Forall₂ (flip (Twin P)) m.contracts l.contracts := List.Forall₂.flip h.contracts
  refine ((List.forall₂_and_left (p := fun e => e.2.deployed = true) (R := flip (Twin P)) _ _).mp
    (hflip.imp fun d e hed => ⟨?_, hed⟩)).1
  obtain ⟨s, hs⟩ := hed.alike
  rw [hs]
  exact hed.deployed

lemma find? (h : Overlay P l m) (a : Address) :
    (l.contracts.find? a = none ∧ m.contracts.find? a = none) ∨
      ∃ c s, l.contracts.find? a = some c ∧ m.contracts.find? a = some { c with states := s } ∧
        c.address = a ∧ (P.find? a = none → s = c.states) :=
  Twin.find? h.contracts a

lemma hasContract (h : Overlay P l m) (a : Address) : m.hasContract a = l.hasContract a := by
  simp only [Ledger.hasContract, Table.contains]
  obtain ⟨hl, hm⟩ | ⟨c, s, hl, hm, _⟩ := h.find? a
  · rw [hl, hm]
  · rw [hl, hm]
    rfl

lemma find?_eq (h : Overlay P l m) {a : Address}
    (ha : ∀ s, P.find? a = some s → l.storage? a = some s) :
    m.contracts.find? a = l.contracts.find? a := by
  obtain ⟨hl, hm⟩ | ⟨c, s, hl, hm, _, hsame⟩ := h.find? a
  · rw [hl, hm]
  · have hs : s = c.states := by
      cases hP : P.find? a with
      | none => exact hsame hP
      | some s' =>
        have hlow := ha s' hP
        have hhigh := h.storage a s' hP
        simp only [Ledger.storage?, hl, hm, Option.map_some, Option.some.injEq] at hlow hhigh
        exact hhigh.trans hlow.symm
    rw [hl, hm, hs]

lemma book (h : Overlay P l m) {k : Ledger → Ledger} (hk : Bookkeeping k) :
    Overlay P (k l) (k m) := by
  obtain ⟨t, rfl⟩ := h.ledger
  cases hk with
  | enter entries => exact ⟨⟨t, rfl⟩, h.contracts, h.storage⟩
  | note level text => exact ⟨⟨t, rfl⟩, h.contracts, h.storage⟩
  | count n => exact ⟨⟨t, rfl⟩, h.contracts, h.storage⟩
  | code a code => exact ⟨⟨t, rfl⟩, h.contracts, h.storage⟩

lemma modify (h : Overlay P l m) (a : Address) {k : Contract → Contract} (hk : Tending k) :
    Overlay P (l.modifyContract a k) (m.modifyContract a k) := by
  obtain ⟨t, rfl⟩ := h.ledger
  refine ⟨⟨_, rfl⟩, ?_, fun d s hd => ?_⟩
  · refine Table.forall₂_modify (fun e d hed => hed.key) h.contracts (fun e d hed he => ?_)
      fun e d hed _ => hed
    obtain ⟨s, hs⟩ := hed.alike
    refine ⟨rfl, ⟨s, ?_⟩, fun hnone => ?_, (hk.address _).trans (hed.address.trans he),
      (hk.deployed _).trans hed.deployed⟩
    · rw [hs, hk.blind]
    · rw [hed.same (he ▸ hnone)]
  · rw [Ledger.storage?_modifyContract_of_blind _ _ hk.states]
    exact h.storage d s hd

lemma cons (h : Overlay P l m) {a : Address} {s : Storage} (ha : m.storage? a = some s) :
    Overlay ((a, s) :: P) l m := by
  refine ⟨h.ledger, ?_, fun b s' hb => ?_⟩
  · refine h.contracts.imp fun e d hed => ⟨hed.key, hed.alike, ?_, hed.address, hed.deployed⟩
    intro hnone
    by_cases hae : a = e.1
    · rw [Table.find?_cons, if_pos hae] at hnone
      cases hnone
    · rw [Table.find?_cons, if_neg hae] at hnone
      exact hed.same hnone
  · by_cases hab : a = b
    · rw [Table.find?_cons, if_pos hab] at hb
      cases hb
      exact hab ▸ ha
    · rw [Table.find?_cons, if_neg hab] at hb
      exact h.storage b s' hb

lemma change (k : Storage → Storage) {a : Address} {s : Storage}
    (h : Overlay ((a, s) :: P) l m) :
    Overlay ((a, k s) :: P) l (m.modifyContract a (restoring k)) := by
  obtain ⟨t, rfl⟩ := h.ledger
  have hfind (b : Address) (hb : b ≠ a) (r : Storage) :
      Table.find? ((a, r) :: P) b = Table.find? P b := by
    rw [Table.find?_cons, if_neg (Ne.symm hb)]
  refine ⟨⟨_, rfl⟩, ?_, fun b s' hb => ?_⟩
  · have hmod := Table.forall₂_modify (Q := Twin ((a, k s) :: P)) (k := a) (f := id)
      (g := restoring k) (fun e d hed => hed.key) h.contracts (fun e d hed he => ?_)
      fun e d hed he => ?_
    · rw [Table.modify_id] at hmod
      exact hmod
    · obtain ⟨s', hs'⟩ := hed.alike
      refine ⟨rfl, ⟨k s', by rw [hs']; rfl⟩, fun hnone => ?_, hed.address.trans he, hed.deployed⟩
      rw [Table.find?_cons, if_pos rfl] at hnone
      cases hnone
    · exact ⟨hed.key, hed.alike, fun hnone => hed.same (by rw [hfind _ he] at hnone ⊢; exact hnone),
        hed.address, hed.deployed⟩
  · by_cases hba : b = a
    · subst hba
      rw [Table.find?_cons, if_pos rfl] at hb
      cases hb
      have hold := h.storage b s (by rw [Table.find?_cons, if_pos rfl])
      obtain ⟨c, hc, rfl⟩ := Option.map_eq_some_iff.mp hold
      simp [Ledger.storage?_modifyContract, hc, restoring]
    · rw [Ledger.storage?_modifyContract_of_ne _ hba]
      exact h.storage b s' (by rw [hfind b hba] at hb ⊢; exact hb)

def fresh (copy c : Contract) : List (Address × Bytes) :=
  copy.children.filter fun (a, _) => !c.children.contains a

def taken (copy : Contract) (records : List (Address × Bytes)) (c : Contract) : Contract :=
  { c with states := copy.states, children := c.children ++ records }

lemma carryOver_of_find? {target : Address} {c : Contract} (copy : Contract)
    (hc : l.contracts.find? target = some c) :
    Run.carryOver l target copy =
      (l.modifyContract target (taken copy (fresh copy c)),
        (fresh copy c).map fun (a, _) => (target, a)) := by
  simp only [Run.carryOver, hc]
  rfl

lemma storage?_carryOver (copy : Contract) {target : Address}
    (h : l.hasContract target = true) :
    (Run.carryOver l target copy).1.storage? target = some copy.states := by
  obtain ⟨c, hc⟩ := Option.isSome_iff_exists.mp h
  rw [carryOver_of_find? copy hc, Ledger.storage?_modifyContract, if_pos rfl, hc]
  rfl

lemma carryOver {target : Address} {copy : Contract}
    (h : Overlay ((target, copy.states) :: P) l m)
    (hP : ∀ s, P.find? target = some s → copy.states = s) :
    Overlay P (Run.carryOver l target copy).1 (Run.carryOver m target copy).1 ∧
      (Run.carryOver m target copy).2 = (Run.carryOver l target copy).2 := by
  have htarget := h.storage target copy.states (by rw [Table.find?_cons, if_pos rfl])
  have hrest (a : Address) (ha : a ≠ target) :
      Table.find? ((target, copy.states) :: P) a = Table.find? P a := by
    rw [Table.find?_cons, if_neg (Ne.symm ha)]
  obtain ⟨_, hm⟩ | ⟨c, s, hl, hm, _⟩ := h.find? target
  · simp [Ledger.storage?, hm] at htarget
  · have hmod : List.Forall₂ (Twin P) (l.contracts.modify target (taken copy (fresh copy c)))
        (m.contracts.modify target (taken copy (fresh copy c))) := by
      refine Table.forall₂_modify (fun e d hed => hed.key) h.contracts (fun e d hed he => ?_)
        fun e d hed he => ?_
      · obtain ⟨s', hs'⟩ := hed.alike
        rw [hs']
        exact ⟨rfl, ⟨copy.states, rfl⟩, fun _ => rfl, hed.address.trans he, hed.deployed⟩
      · exact ⟨hed.key, hed.alike, fun hnone => hed.same (by rw [hrest _ he]; exact hnone),
          hed.address, hed.deployed⟩
    obtain ⟨t, rfl⟩ := h.ledger
    rw [carryOver_of_find? copy hl, carryOver_of_find? copy hm]
    refine ⟨⟨⟨_, rfl⟩, hmod, fun a s' ha => ?_⟩, rfl⟩
    by_cases hat : a = target
    · subst hat
      rw [Ledger.storage?_modifyContract, if_pos rfl, hm, ← hP s' ha]
      rfl
    · rw [Ledger.storage?_modifyContract_of_ne _ hat]
      exact h.storage a s' (by rw [hrest a hat]; exact ha)

end Overlay

end ChainReplay
