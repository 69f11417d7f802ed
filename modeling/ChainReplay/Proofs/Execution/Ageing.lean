import Mathlib.Logic.Relation
import ChainReplay.Proofs.Execution.Sustained
import ChainReplay.Proofs.Ledger.Inheritance

/-! What runs never change of a contract. They write its storage and its records and leave behind what
the last call left, but they do not take a deployment back, and only a deployment writes the storage of
deployment. -/

namespace ChainReplay

open Run

namespace Ledger

/-- Runs may have made the second ledger of the first one. -/
structure Ages (l m : Ledger) : Prop where
  surface : m.surface = l.surface
  codes : l.codes.Included m.codes
  contracts : ∀ a, Option.Rel Contract.Ages (l.contracts.find? a) (m.contracts.find? a)

namespace Ages

variable {l m : Ledger}

lemma of_contracts (hsurface : m.surface = l.surface) (hcodes : l.codes.Included m.codes)
    (hcontracts : m.contracts = l.contracts) : l.Ages m where
  surface := hsurface
  codes := hcodes
  contracts := by
    intro a
    rw [hcontracts]
    cases l.contracts.find? a with
    | none => exact .none
    | some c => exact .some (.refl c)

lemma refl (l : Ledger) : l.Ages l := of_contracts rfl (.refl _) rfl

lemma found (h : l.Ages m) {a : Address} {c : Contract} (hc : l.contracts.find? a = some c) :
    ∃ d, m.contracts.find? a = some d ∧ c.Ages d := by
  have hcontracts := h.contracts a
  rw [hc] at hcontracts
  revert hcontracts
  generalize m.contracts.find? a = x
  rintro ⟨hcd⟩
  exact ⟨_, rfl, hcd⟩

lemma origin (h : l.Ages m) {a : Address} {d : Contract} (hd : m.contracts.find? a = some d) :
    ∃ c, l.contracts.find? a = some c ∧ c.Ages d := by
  have hcontracts := h.contracts a
  rw [hd] at hcontracts
  revert hcontracts
  generalize l.contracts.find? a = x
  rintro ⟨hcd⟩
  exact ⟨_, rfl, hcd⟩

lemma filed (h : l.Ages m) (hl : l.Filed) : m.Filed := by
  intro a d hd
  obtain ⟨c, hc, hcd⟩ := h.origin hd
  exact hcd.address.trans (hl a c hc)

lemma trans {n : Ledger} (h : l.Ages m) (h' : m.Ages n) : l.Ages n where
  surface := h'.surface.trans h.surface
  codes := h.codes.trans h'.codes
  contracts := by
    intro a
    have hlm := h.contracts a
    have hmn := h'.contracts a
    revert hlm hmn
    generalize l.contracts.find? a = x
    generalize m.contracts.find? a = y
    generalize n.contracts.find? a = z
    rintro (hcd | _) (hde | _)
    · exact .some (hcd.trans hde)
    · exact .none

lemma setCode (l : Ledger) (a : Address) (code : Bytes) : l.Ages (l.setCode a code) :=
  of_contracts rfl (Table.included_insertNew _ _ _) rfl

lemma modifyContract (l : Ledger) (a : Address) {k : Contract → Contract}
    (hk : ∀ c : Contract, c.Ages (k c)) : l.Ages (l.modifyContract a k) where
  surface := rfl
  codes := .refl _
  contracts := by
    intro b
    simp only [Ledger.modifyContract]
    rw [Table.find?_modify]
    split
    · cases l.contracts.find? b with
      | none => exact .none
      | some c => exact .some (hk c)
    · exact (refl l).contracts b

end Ages

end Ledger

def Frame.Ages (f g : Frame) : Prop := f.ledger.Ages g.ledger

namespace Frame.Ages

instance : IsPreorder Frame Frame.Ages where
  refl := fun f => .refl f.ledger
  trans := fun _ _ _ h h' => Ledger.Ages.trans h h'

lemma of_contracts {f : Frame} {l : Ledger} (hsurface : l.surface = f.ledger.surface)
    (hcodes : f.ledger.codes.Included l.codes) (hcontracts : l.contracts = f.ledger.contracts) :
    f.Ages { f with ledger := l } := Ledger.Ages.of_contracts hsurface hcodes hcontracts

lemma modifyContract (f : Frame) {k : Contract → Contract} (hk : ∀ c : Contract, c.Ages (k c)) :
    f.Ages (f.modifyContract k) := by
  rw [Frame.modifyContract]
  cases f.seat with
  | registered a => exact Ledger.Ages.modifyContract f.ledger a hk
  | apart c => exact Ledger.Ages.refl f.ledger

lemma asked (parameters : Parameters) (f : Frame) : f.Ages (asked parameters f) :=
  of_contracts rfl (.refl _) rfl

end Frame.Ages

lemma sustained_ages : Sustained Frame.Ages where
  note := fun f _ _ => .of_contracts rfl (.refl _) rfl
  code := fun f a code => Ledger.Ages.setCode f.ledger a code
  own := fun f _ hk => .modifyContract f hk.ages
  other := fun f a _ hk => Ledger.Ages.modifyContract f.ledger a hk.ages
  deployments := fun f _ => Ledger.Ages.refl f.ledger
  dispose := by
    intro f
    have hentered : f.Ages { f with ledger := f.ledger.enter f.contract.disposal } :=
      .of_contracts rfl (.refl _) rfl
    exact trans_of Frame.Ages hentered (.modifyContract _ Contract.Ages.dispose)
  enter := fun f _ _ => .of_contracts rfl (.refl _) rfl
  equip := by
    intro f r g _ hx
    rcases equip_cases hx with ⟨e, -, rfl⟩ | ⟨engine, parameters, -, ⟨e, -, -, rfl⟩ | ⟨i, -, -, rfl⟩⟩
    · exact refl _
    · exact .asked parameters f
    · exact trans_of Frame.Ages (.asked parameters f)
        (.modifyContract _ (k := equipped _) fun _ => .of_eq rfl rfl rfl)
  visit := fun _ _ _ _ h _ => h
  copy := fun _ _ _ _ h _ => h

namespace Ledger

/-- The ledger ages whatever is run on it from outside. -/
theorem Ages.perform {α : Type} {x : Run α} (hx : Outer x) {l m : Ledger} {seat seat' : Seat}
    {r : Except Failure α} (h : l.perform seat x = some (r, m, seat')) : l.Ages m := by
  have hP := sustained_ages
  have hcall (fuel : Nat) (target : Address) (calldata : Bytes) (g : Frame) :
      Leads Frame.Ages g (Run.call fuel target calldata) :=
    hP.leads_call fuel target calldata
  have hleads : Leads Frame.Ages ⟨l, seat, []⟩ x := by
    cases hx with
    | deploy fuel => exact hP.leads_deploy (hcall fuel)
    | execute fuel calldata sender origin => exact hP.leads_execute (hcall fuel) _ _ _
    | receive fuel calldata sender origin => exact hP.leads_receive (hcall fuel) _ _ _ _
    | call fuel target calldata => exact hcall fuel target calldata _
    | request fuel request data => exact hP.leads_request (hcall fuel) request data
    | dispose => exact hP.leads_dispose
  rw [perform_eq, Option.map_eq_some_iff] at h
  obtain ⟨⟨q, f⟩, hrun, heq⟩ := h
  cases heq
  exact hleads _ _ hrun

/-- One run from outside has gone from the one ledger to the other. -/
def Performs (l m : Ledger) : Prop :=
  ∃ (α : Type) (x : Run α) (seat seat' : Seat) (r : Except Failure α),
    Outer x ∧ l.perform seat x = some (r, m, seat')

/-- What holds after one run from outside holds after any number of them. -/
theorem ages_of_performs {l m : Ledger} (h : Relation.ReflTransGen Performs l m) : l.Ages m := by
  induction h with
  | refl => exact .refl l
  | tail _ hstep ih =>
    obtain ⟨α, x, seat, seat', r, hx, hrun⟩ := hstep
    exact ih.trans (.perform hx hrun)

end Ledger

end ChainReplay
