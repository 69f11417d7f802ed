import Mathlib.Logic.Relation
import ChainReplay.Proofs.Replay.Inheritance

/-! Histories of stages: what a stage that has been set up goes through, and what stays of it. -/

namespace ChainReplay

namespace Staged

variable {α β : Type} {s t : Stage}

def outcome (x : Staged α) (s : Stage) : Option (Except Failure α × Stage) := ExceptT.run x s

lemma outcome_bind (x : Staged α) (k : α → Staged β) (s : Stage) :
    (x >>= k).outcome s = (x.outcome s).bind fun (r, t) =>
      match r with
      | .ok a => (k a).outcome t
      | .error e => some (.error e, t) := by
  change Option.bind (ExceptT.run x s) _ = _
  rw [outcome]
  congr 1
  funext ⟨r, t⟩
  cases r <;> rfl

lemma outcome_bind_of_ok {x : Staged α} {k : α → Staged β} {a : α}
    (h : x.outcome s = some (.ok a, t)) : (x >>= k).outcome s = (k a).outcome t := by
  rw [outcome_bind, h]
  rfl

lemma outcome_bind_of_error {x : Staged α} {k : α → Staged β} {e : Failure}
    (h : x.outcome s = some (.error e, t)) : (x >>= k).outcome s = some (.error e, t) := by
  rw [outcome_bind, h]
  rfl

lemma outcome_bind_ok {x : Staged α} {k : α → Staged β} {b : β}
    (h : (x >>= k).outcome s = some (.ok b, t)) :
    ∃ a u, x.outcome s = some (.ok a, u) ∧ (k a).outcome u = some (.ok b, t) := by
  rw [outcome_bind] at h
  obtain ⟨⟨_ | a, u⟩, hx, h⟩ := Option.bind_eq_some_iff.mp h
  · cases h
  · exact ⟨a, u, hx, h⟩

lemma outcome_liftM (q : Except Failure α) (s : Stage) :
    (liftM q : Staged α).outcome s = some (q, s) := by
  cases q <;> rfl

end Staged

namespace Stage

variable {s t : Stage}

/-- The stage has been set up. -/
def Initialised (s : Stage) : Prop := ∃ before, setUp.outcome before = some (.ok ⟨⟩, s)

/-- The code of all contracts of the plan is known. -/
def Equipped (s : Stage) : Prop :=
  ∀ c ∈ s.plan.contracts, s.ledger.codes.contains c.address = true

lemma contains_of_loadCode {c : ContractPlan} (h : (loadCode c).outcome s = some (.ok ⟨⟩, t)) :
    t.ledger.codes.contains c.address = true := by
  rw [loadCode] at h
  obtain ⟨_, _, ⟨⟩, h⟩ := Staged.outcome_bind_ok h
  obtain ⟨path, _, hpath, h⟩ := Staged.outcome_bind_ok h
  obtain ⟨⟨l, code⟩, u, hloaded, h⟩ := Staged.outcome_bind_ok h
  rw [Staged.outcome_liftM, Option.some.injEq, Prod.mk.injEq] at hloaded
  have hknown := (Ledger.loadCode_spec hloaded.1).2
  cases h
  exact hknown

lemma contains_of_loadCodes {contracts : List ContractPlan} {r : PUnit}
    (h : Staged.outcome (forIn contracts PUnit.unit fun c _ => do
      loadCode c
      pure (ForInStep.yield PUnit.unit)) s = some (.ok r, t)) :
    ∀ c ∈ contracts, t.ledger.codes.contains c.address = true := by
  induction contracts generalizing s with
  | nil => exact fun c hc => absurd hc List.not_mem_nil
  | cons first rest ih =>
    simp only [List.forIn_cons, bind_assoc, pure_bind] at h
    obtain ⟨⟨⟩, u, hfirst, h⟩ := Staged.outcome_bind_ok h
    have hrest : Inherits u t := Leads.forIn (fun c u => leads_loadCode c) _ _ h
    intro c hc
    rcases List.mem_cons.mp hc with rfl | hc
    · exact hrest.ledger.codes.contains (contains_of_loadCode hfirst)
    · exact ih h c hc

lemma Equipped.inherits (hs : s.Equipped) (h : s.Inherits t) : t.Equipped := by
  intro c hc
  exact h.ledger.codes.contains (hs c (h.plan ▸ hc))

/-- The code of the plan's contracts is loaded first, and nothing forgets it. -/
lemma Initialised.equipped (h : s.Initialised) : s.Equipped := by
  obtain ⟨before, hrun⟩ := h
  rw [setUp] at hrun
  obtain ⟨_, _, ⟨⟩, hrun⟩ := Staged.outcome_bind_ok hrun
  obtain ⟨_, t, hsender, hrun⟩ := Staged.outcome_bind_ok hrun
  obtain ⟨_, u, hloaded, hrun⟩ := Staged.outcome_bind_ok hrun
  have hbefore : before.Inherits u := by
    have ht : before.Inherits t := leads_modifyLedger ⟨rfl, .refl _⟩ _ _ hsender
    exact Trans.trans ht (Leads.forIn (fun c u => leads_loadCode c) _ _ hloaded)
  have hafter : u.Inherits s := by
    refine (leads_registerContracts.bind fun _ v => leads_initLedger.bind fun _ w => ?_) _ _ hrun
    exact .bind_get (leads_note _ _)
  refine Equipped.inherits (fun c hc => ?_) hafter
  exact contains_of_loadCodes hloaded c (hbefore.plan ▸ hc)

/-- One thing that a stage goes through, whether it succeeds or fails. -/
inductive Step (s : Stage) : Stage → Prop
  | loadStates {height : Int} {r : Except Failure Unit} {t : Stage}
      (h : (loadStates height).outcome s = some (r, t)) : Step s t
  | replayBlock {fuel : Nat} {height : Int} {ignoreUnknown allowReverts : Bool}
      {r : Except Failure ReplayResult} {t : Stage}
      (h : (replayBlock fuel height ignoreUnknown allowReverts).outcome s = some (r, t)) : Step s t
  | setUp {r : Except Failure Unit} {t : Stage} (h : setUp.outcome s = some (r, t)) : Step s t
  | cleanUp {r : Except Failure Unit} {t : Stage} (h : cleanUp.outcome s = some (r, t)) : Step s t
  | block {fuel : Nat} {b b' : Block} {q : Except Failure ReplayResult} {l : Ledger}
      (h : b.replay fuel s.ledger = some (q, b', l)) : Step s { s with ledger := l }
  | run {α : Type} {x : Run α} (hx : Ledger.Outer x) {seat seat' : Seat} {r : Except Failure α}
      {l : Ledger} (h : s.ledger.perform seat x = some (r, l, seat')) :
      Step s { s with ledger := l }
  | register {c : Contract} {l : Ledger} (h : s.ledger.register c = .ok l) :
      Step s { s with ledger := l }
  | registerTouched (addresses : List Address) :
      Step s { s with ledger := (s.ledger.registerTouched addresses).1 }
  | setCode (a : Address) (code : Bytes) : Step s { s with ledger := s.ledger.setCode a code }
  | init : Step s { s with ledger := s.ledger.init.1 }
  | dispose : Step s { s with ledger := s.ledger.dispose }
  | cleanup : Step s { s with ledger := s.ledger.cleanup }
  | mine : Step s { s with ledger := s.ledger.mine }
  | override {a : Address} {states : Storage} {o : Overrides} {l : Ledger}
      (h : s.overrides.overrideStates s.ledger a states = .ok (o, l)) :
      Step s { s with ledger := l, overrides := o }
  | purge {r : Except Failure Unit} {t : Stage} (h : purge.outcome s = some (r, t)) : Step s t
  | files (disk : Disk) (cache : Cache) : Step s { s with disk, cache }

def Reaches : Stage → Stage → Prop := Relation.ReflTransGen Step

lemma Step.inherits (h : s.Step t) : s.Inherits t := by
  cases h with
  | loadStates h => exact leads_loadStates _ _ _ h
  | replayBlock h => exact leads_replayBlock _ _ _ _ _ _ h
  | setUp h => exact leads_setUp _ _ h
  | cleanUp h => exact leads_cleanUp _ _ h
  | block h => exact ⟨rfl, Block.inherits_replay h⟩
  | run hx h => exact ⟨rfl, .perform hx h⟩
  | register h => exact ⟨rfl, .register h⟩
  | registerTouched addresses => exact ⟨rfl, Ledger.Inherits.enlists.registerTouched _ _⟩
  | setCode a code => exact ⟨rfl, .setCode _ _ _⟩
  | init => exact ⟨rfl, .init _⟩
  | dispose => exact ⟨rfl, rfl, .refl _⟩
  | cleanup => exact ⟨rfl, rfl, .refl _⟩
  | mine => exact ⟨rfl, rfl, .refl _⟩
  | override h => exact ⟨rfl, Ledger.Inherits.stages.overrideStates h⟩
  | purge h => exact leads_purge _ _ h
  | files disk cache => exact ⟨rfl, .refl _⟩

lemma Reaches.inherits (h : s.Reaches t) : s.Inherits t := by
  induction h with
  | refl => exact refl s
  | tail _ hstep ih => exact Trans.trans ih hstep.inherits

instance : IsPreorder Stage Reaches where
  refl := fun _ => .refl
  trans := fun _ _ _ h h' => h.trans h'

lemma leads_replayFrom (fuel : Nat) (keepStates ignoreUnknown allowReverts seeded : Bool) (n : Nat)
    (height : Int) :
    Leads Reaches s (replayFrom fuel keepStates ignoreUnknown allowReverts seeded n height) :=
  .replayFrom (fun _ _ _ _ h => .single (.loadStates h)) (fun _ _ _ _ h => .single (.replayBlock h))
    _ _ _ _

end Stage

end ChainReplay
