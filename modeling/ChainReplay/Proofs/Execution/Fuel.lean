import ChainReplay.Proofs.Execution.Nesting

/-! More fuel does not change an outcome, and no run changes the engine or the addresses under which
contracts are registered. -/

namespace ChainReplay

namespace Ledger

structure Continues (before after : Ledger) : Prop where
  engine : after.engine = before.engine
  keys : after.contracts.keys = before.contracts.keys

lemma Continues.refl (l : Ledger) : l.Continues l := ⟨rfl, rfl⟩

lemma Continues.hasContract {l m : Ledger} (h : l.Continues m) (a : Address) :
    m.hasContract a = l.hasContract a := by
  simp only [Ledger.hasContract]
  rw [Bool.eq_iff_iff, Table.contains_iff, Table.contains_iff, h.keys]

lemma Continues.modify {l m : Ledger} (h : l.Continues m) (a : Address) (k : Contract → Contract) :
    l.Continues (m.modifyContract a k) :=
  ⟨h.engine, (Table.keys_modify _ _ _).trans h.keys⟩

/-- A property of ledgers that neither bookkeeping nor a change of a contract takes away. -/
structure Stable (I : Ledger → Prop) : Prop where
  book : ∀ l k, I l → Bookkeeping k → I (k l)
  modify : ∀ l a k, I l → I (l.modifyContract a k)

namespace Stable

open Run

variable {I : Ledger → Prop} {call call' : Address → Bytes → Run CallResponse}

lemma lasting (h : Stable I) : Lasting fun f => I f.ledger where
  book := fun f k hf hk => h.book f.ledger k hf hk
  own := by
    intro f k hf _
    rw [Frame.modifyContract]
    cases f.seat with
    | registered a => exact h.modify f.ledger a k hf
    | apart c => exact hf
  other := fun f a k hf _ => h.modify f.ledger a k hf
  deployments := fun _ _ hf => hf

lemma carryOver (h : Stable I) (target : Address) (l : Ledger) (copy : Contract) (hl : I l) :
    I (carryOver l target copy).1 := by
  rw [Run.carryOver]
  split
  · exact hl
  · exact h.modify l target _ hl

lemma callWith (h : Stable I)
    (hcall : ∀ target calldata, Simulates (Same fun f => I f.ledger) Eq (call target calldata)
      (call' target calldata)) (target : Address) (calldata : Bytes) :
    Simulates (Same fun f => I f.ledger) Eq (callWith call target calldata)
      (callWith call' target calldata) :=
  h.lasting.callWith h.lasting hcall (fun _ _ hf => hf) (fun _ _ _ hg => hg)
    (h.lasting.openCall h.lasting hcall (fun _ hf => hf) fun _ _ _ hg => hg)
    (fun f copy => h.carryOver target f.ledger copy) calldata

lemma call_add (h : Stable I) (n k : Nat) (target : Address) (calldata : Bytes) :
    Simulates (Same fun f => I f.ledger) Eq (Run.call n target calldata)
      (Run.call (n + k) target calldata) := by
  induction n generalizing target calldata with
  | zero => exact .outOfFuel _
  | succ n ih =>
    rw [Nat.succ_add]
    exact h.callWith ih target calldata

end Stable

lemma stable_continues (l : Ledger) : Stable l.Continues where
  book := by
    rintro m _ h (entries | ⟨level, text⟩ | n | ⟨a, code⟩) <;> exact ⟨h.engine, h.keys⟩
  modify := fun _ a k h => h.modify a k

end Ledger

namespace Run

open Ledger (stable_continues)

def Continuing (l : Ledger) (f : Frame) : Prop := l.Continues f.ledger

lemma lasting_continuing (l : Ledger) : Lasting (Continuing l) := (stable_continues l).lasting

/-- An outcome stays what it is with more fuel, and the ledger that it leaves continues the given
one. -/
theorem outcome_execute_of_le {n m : Nat} (h : n ≤ m) {calldata : Bytes}
    {sender origin : Option Address} {f g : Frame} {r : Except Failure CallResponse}
    (hrun : (execute (Run.call n) calldata sender origin).outcome f = some (r, g)) :
    (execute (Run.call m) calldata sender origin).outcome f = some (r, g) ∧
      f.ledger.Continues g.ledger := by
  obtain ⟨k, rfl⟩ := Nat.exists_eq_add_of_le h
  have hI := lasting_continuing f.ledger
  have hcall := (stable_continues f.ledger).call_add n k
  obtain ⟨r', g', hrun', hr, rfl, hg⟩ := hI.execute hcall (hI.deploy hcall) calldata sender origin
    f f ⟨rfl, .refl _⟩ r g hrun
  cases hr.eq
  exact ⟨hrun', hg⟩

end Run

end ChainReplay
