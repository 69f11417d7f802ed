import ChainReplay.Execution.Frame
import ChainReplay.Ledger.Registry
import ChainReplay.Proofs.Table

/-! The storage of registered contracts, and ledgers whose contracts are all deployed and stand under
their own addresses. -/

namespace ChainReplay

namespace Ledger

def storage? (l : Ledger) (a : Address) : Option Storage := (l.contracts.find? a).map (·.states)

/-- All registered contracts are deployed. -/
def Settled (l : Ledger) : Prop := ∀ entry ∈ l.contracts, entry.2.deployed = true

/-- All contracts are registered under their addresses. -/
def Keyed (l : Ledger) : Prop := ∀ entry ∈ l.contracts, entry.2.address = entry.1

lemma storage?_modifyContract (l : Ledger) (a : Address) (k : Contract → Contract) (d : Address) :
    (l.modifyContract a k).storage? d =
      if d = a then (l.contracts.find? d).map fun c => (k c).states else l.storage? d := by
  simp only [storage?, modifyContract]
  rw [Table.find?_modify]
  split <;> simp [Function.comp_def]

lemma storage?_modifyContract_of_blind (l : Ledger) (a : Address) {k : Contract → Contract}
    (hk : ∀ c, (k c).states = c.states) (d : Address) :
    (l.modifyContract a k).storage? d = l.storage? d := by
  rw [storage?_modifyContract]
  split
  · simp [hk, storage?]
  · rfl

lemma storage?_modifyContract_of_ne (l : Ledger) {a d : Address} (h : d ≠ a)
    (k : Contract → Contract) : (l.modifyContract a k).storage? d = l.storage? d := by
  rw [storage?_modifyContract, if_neg h]

section All

variable (l : Ledger) (k : Contract → Contract)

lemma keys_modifyAll : (l.modifyAll k).contracts.keys = l.contracts.keys := by
  simp [modifyAll, Table.keys, Function.comp_def]

lemma values_modifyAll : (l.modifyAll k).contracts.values = l.contracts.values.map k := by
  simp [modifyAll, Table.values, Function.comp_def]

lemma find?_modifyAll (a : Address) :
    (l.modifyAll k).contracts.find? a = (l.contracts.find? a).map k := by
  simp only [modifyAll]
  induction l.contracts with
  | nil => rfl
  | cons entry t ih =>
    rw [List.map_cons, Table.find?_cons, Table.find?_cons, ih]
    split <;> rfl

end All

lemma Settled.modifyContract {l : Ledger} (h : l.Settled) (a : Address) {k : Contract → Contract}
    (hk : ∀ c, c.deployed = true → (k c).deployed = true) : (l.modifyContract a k).Settled := by
  intro entry hmem
  rcases Table.mem_modify hmem with hmem | ⟨_, c, hmem, heq⟩
  · exact h entry hmem
  · rw [heq]
    exact hk c (h _ hmem)

lemma Settled.deployed {l : Ledger} (h : l.Settled) {a : Address} (ha : l.hasContract a = true) :
    (Seat.contract l (.registered a)).deployed = true := by
  obtain ⟨c, hc⟩ := Option.isSome_iff_exists.mp ha
  simp only [Seat.contract, hc, Option.getD_some]
  exact h _ (Table.mem_of_find? hc)

lemma keyed_create (settings : Settings) (engine : Option Engine) :
    (create settings engine).Keyed := nofun

lemma Keyed.register {l m : Ledger} (h : l.Keyed) {c : Contract} (hreg : l.register c = .ok m) :
    m.Keyed := by
  rw [Ledger.register] at hreg
  split at hreg
  case isTrue => cases hreg
  case isFalse =>
    cases hreg
    intro entry hmem
    rcases List.mem_append.mp hmem with hmem | hmem
    · exact h entry hmem
    · rw [List.mem_singleton.mp hmem]

lemma Keyed.modifyContract {l : Ledger} (h : l.Keyed) (a : Address) {k : Contract → Contract}
    (hk : ∀ c, (k c).address = c.address) : (l.modifyContract a k).Keyed := by
  intro entry hmem
  rcases Table.mem_modify hmem with hmem | ⟨hkey, c, hmem, heq⟩
  · exact h entry hmem
  · rw [heq, hk]
    exact (h _ hmem).trans hkey.symm

def numbered (n : UInt8) : Address := ⟨List.replicate 31 0 ++ [n], rfl⟩

/-- A ledger on which contracts without storage stand deployed under these addresses. -/
def standing (engine : Engine) (addresses : List Address) : Ledger :=
  { create Settings.default (some engine) with
    contracts := addresses.map fun a =>
      (a, { Contract.create a a (.amount 0) none [] with deployed := true, code := some [] }) }

lemma settled_standing (engine : Engine) (addresses : List Address) :
    (standing engine addresses).Settled := by
  intro entry hmem
  obtain ⟨a, _, rfl⟩ := List.mem_map.mp hmem
  rfl

lemma keyed_standing (engine : Engine) (addresses : List Address) :
    (standing engine addresses).Keyed := by
  intro entry hmem
  obtain ⟨a, _, rfl⟩ := List.mem_map.mp hmem
  rfl

end Ledger

end ChainReplay
