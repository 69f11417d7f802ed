import ChainReplay.Ledger.Registry
import ChainReplay.Proofs.Table

/-! Registering what contracts have deployed: it always succeeds, and takes no contract away. -/

namespace ChainReplay

namespace Table

variable {κ α : Type} [DecidableEq κ]

lemma find?_append (t u : Table κ α) (k : κ) :
    find? (t ++ u : List (κ × α)) k = (find? t k).or (find? u k) := by
  simp only [find?]
  rw [List.find?_append]
  cases List.find? (·.1 = k) t <;> simp

lemma contains_append (t u : Table κ α) (k : κ) :
    contains (t ++ u : List (κ × α)) k = (contains t k || contains u k) := by
  simp [contains, find?_append]

lemma contains_insertNew_self (t : Table κ α) (k : κ) (a : α) :
    contains (insertNew t k a) k = true := by
  rw [insertNew]
  split
  · assumption
  · rw [contains_append]
    simp [contains, find?]

end Table

namespace Ledger

/-- The later ledger has the engine of the former, and at least its contracts. -/
structure Extends (before after : Ledger) : Prop where
  engine : after.engine = before.engine
  hasContract : ∀ a, before.hasContract a = true → after.hasContract a = true

lemma Extends.refl (l : Ledger) : l.Extends l := ⟨rfl, fun _ h => h⟩

lemma Extends.trans {l m n : Ledger} (h : l.Extends m) (h' : m.Extends n) : l.Extends n :=
  ⟨h'.engine.trans h.engine, fun a ha => h'.hasContract a (h.hasContract a ha)⟩

lemma resolveCode_of_ownCode (l : Ledger) {c : Contract} {code : Bytes}
    (h : c.ownCode = some code) :
    ∃ resolved, l.resolveCode c =
      (l.setCode c.address code, .ok { c with code := some resolved }) := by
  have hcontains := Table.contains_insertNew_self l.codes c.address code
  obtain ⟨resolved, hfind⟩ := Option.isSome_iff_exists.mp hcontains
  have hcode : (l.setCode c.address code).code? c.address = .ok resolved := by
    simp [setCode, code?, hfind]
  refine ⟨resolved, ?_⟩
  simp only [resolveCode, h, hcode]

/-- The later ledger has the contracts of the former as they were. Each other contract has no
deployments on record, and is itself on record with a contract of the former ledger, its deployer. -/
structure Adopts (before after : Ledger) : Prop where
  engine : after.engine = before.engine
  kept : ∀ a c, before.contracts.find? a = some c → after.contracts.find? a = some c
  fresh : ∀ a c, before.contracts.find? a = none → after.contracts.find? a = some c →
    c.children = [] ∧ ∃ d parent, before.contracts.find? d = some parent ∧
      parent.children.contains a = true ∧ c.deployer = parent.address

namespace Adopts

variable {l m n : Ledger}

lemma of_contracts (hcontracts : m.contracts = l.contracts) (hengine : m.engine = l.engine) :
    l.Adopts m where
  engine := hengine
  kept := fun _ _ hc => hcontracts ▸ hc
  fresh := by
    intro a c hnone hc
    rw [hcontracts, hnone] at hc
    cases hc

lemma refl (l : Ledger) : l.Adopts l := of_contracts rfl rfl

lemma trans (h : l.Adopts m) (h' : m.Adopts n) : l.Adopts n where
  engine := h'.engine.trans h.engine
  kept := fun a c hc => h'.kept a c (h.kept a c hc)
  fresh := by
    intro a c hnone hc
    cases hm : m.contracts.find? a with
    | some d =>
      cases (h'.kept a d hm).symm.trans hc
      exact h.fresh a c hnone hm
    | none =>
      obtain ⟨hchildren, d, parent, hd, hin, hdeployer⟩ := h'.fresh a c hm hc
      refine ⟨hchildren, ?_⟩
      cases hl : l.contracts.find? d with
      | some p =>
        cases (h.kept d p hl).symm.trans hd
        exact ⟨d, parent, hl, hin, hdeployer⟩
      | none =>
        rw [(h.fresh d parent hl hd).1] at hin
        cases hin

lemma hasContract (h : l.Adopts m) {a : Address} (ha : l.hasContract a = true) :
    m.hasContract a = true := by
  obtain ⟨c, hc⟩ := Option.isSome_iff_exists.mp ha
  exact Option.isSome_iff_exists.mpr ⟨c, h.kept a c hc⟩

end Adopts

lemma register_of_new (l : Ledger) {c : Contract} (h : ¬l.hasContract c.address = true) :
    ∃ m, l.register c = .ok m ∧ m.contracts = l.contracts ++ [(c.address, c)] ∧
      m.engine = l.engine := by
  rw [register]
  rw [if_neg h]
  exact ⟨_, rfl, rfl, rfl⟩

/-- A contract that the parent has on record is registered as one that the parent has deployed. -/
lemma adopts_of_register {l m : Ledger} {d : Address} {parent child : Contract}
    (hcontracts : m.contracts = l.contracts ++ [(child.address, child)])
    (hengine : m.engine = l.engine) (hparent : l.contracts.find? d = some parent)
    (hin : parent.children.contains child.address = true) (hchildren : child.children = [])
    (hdeployer : child.deployer = parent.address) : l.Adopts m where
  engine := hengine
  kept := by
    intro a c hc
    rw [hcontracts, Table.find?_append, hc]
    rfl
  fresh := by
    intro a c hnone hc
    rw [hcontracts, Table.find?_append, hnone, Option.none_or, Table.find?_cons] at hc
    split at hc
    case isTrue heq =>
      cases hc
      exact ⟨hchildren, d, parent, hparent, heq ▸ hin, hdeployer⟩
    case isFalse => cases hc

lemma registerChildren_adopts {l : Ledger} {d : Address} {parent : Contract}
    (hparent : l.contracts.find? d = some parent) (children : List (Address × Bytes))
    (hchildren : ∀ entry ∈ children, parent.children.contains entry.1 = true) :
    ∃ m created, l.registerChildren parent children = (m, .ok created) ∧ l.Adopts m ∧
      ∀ entry ∈ children, m.hasContract entry.1 = true := by
  induction children generalizing l with
  | nil => exact ⟨l, [], rfl, .refl l, fun _ h => absurd h List.not_mem_nil⟩
  | cons entry rest ih =>
    obtain ⟨a, code⟩ := entry
    obtain ⟨hin, hrest⟩ := List.forall_mem_cons.mp hchildren
    rw [registerChildren]
    split
    case isTrue hknown =>
      obtain ⟨m, created, hm, hadopts, hregistered⟩ := ih hparent hrest
      exact ⟨m, created, hm, hadopts,
        List.forall_mem_cons.mpr ⟨hadopts.hasContract hknown, hregistered⟩⟩
    case isFalse hnew =>
      obtain ⟨resolved, hresolve⟩ := l.resolveCode_of_ownCode
        (c := Contract.create a parent.address parent.gasLimit (some code) []) rfl
      obtain ⟨m, hregister, hcontracts, hengine⟩ := (l.setCode a code).register_of_new
        (c := { Contract.create a parent.address parent.gasLimit (some code) [] with
          code := some resolved }) hnew
      have hadopts : l.Adopts m := adopts_of_register hcontracts hengine hparent hin rfl rfl
      have hchild : m.hasContract a = true := by
        rw [hasContract, hcontracts, Table.contains_append]
        simp [Table.contains, Table.find?_cons, Contract.create]
      obtain ⟨n, created, hrun, hmore, hregistered⟩ := ih (hadopts.kept d parent hparent) hrest
      simp only [hresolve]
      simp only [Contract.create] at hregister ⊢
      simp only [hregister, hrun]
      exact ⟨n, a :: created, rfl, hadopts.trans hmore,
        List.forall_mem_cons.mpr ⟨hmore.hasContract hchild, hregistered⟩⟩

/-- All that the given contracts have on record is registered. -/
theorem registerTouched_adopts (l : Ledger) (addresses : List Address) :
    ∃ m created, l.registerTouched addresses = (m, .ok created) ∧ l.Adopts m ∧
      ∀ a ∈ addresses, ∀ c, l.contracts.find? a = some c → ∀ entry ∈ c.children,
        m.hasContract entry.1 = true := by
  induction addresses generalizing l with
  | nil => exact ⟨l, [], rfl, .refl l, fun _ h => absurd h List.not_mem_nil⟩
  | cons a rest ih =>
    rw [registerTouched]
    split
    case h_1 hnone =>
      obtain ⟨m, created, hm, hadopts, hregistered⟩ := ih l
      refine ⟨m, created, hm, hadopts, List.forall_mem_cons.mpr ⟨fun c hc => ?_, hregistered⟩⟩
      rw [hnone] at hc
      cases hc
    case h_2 c hc =>
      obtain ⟨m, created, hchildren, hadopts, hregistered⟩ :=
        registerChildren_adopts hc c.children fun entry hentry =>
          (Table.contains_iff ..).mpr (List.mem_map_of_mem hentry)
      obtain ⟨n, more, hrest, hmore, hlater⟩ := ih m
      simp only [registerDeployments, hchildren, hrest]
      refine ⟨n, created ++ more, rfl, hadopts.trans hmore,
        List.forall_mem_cons.mpr ⟨fun d hd entry hentry => ?_, fun b hb d hd => ?_⟩⟩
      · cases hc.symm.trans hd
        exact hmore.hasContract (hregistered entry hentry)
      · exact hlater b hb d (hadopts.kept b d hd)

end Ledger

end ChainReplay
