import ChainReplay.Proofs.Ledger.Enlistment
import ChainReplay.Replay.Environment

/-! Work on a stage leaves its plan, and leads from ledger to ledger in each relation in which the parts
of that work stand. -/

namespace ChainReplay

/-- A relation between ledgers in which all stands that a stage does to its ledger between blocks. -/
structure Stages (P : Ledger → Ledger → Prop) : Prop extends Enlists P where
  notices : ∀ l notices, P l { l with notices := l.notices ++ notices }
  actors : ∀ l sender origin, P l { l with sender, origin }
  change : ∀ l a k, (∀ c, (k c).handle = c.handle) → P l (l.modifyContract a k)
  init : ∀ l, P l l.init.1
  clean : ∀ l, P l l.dispose.cleanup

/-- A relation between stages in which all stands that a stage does between blocks. What is done to its
ledger alone stands in the one between ledgers. -/
structure Works (P : Ledger → Ledger → Prop) (Q : Stage → Stage → Prop) : Prop extends Enlists P where
  notices : ∀ l notices, P l { l with notices := l.notices ++ notices }
  actors : ∀ l sender origin, P l { l with sender, origin }
  init : ∀ l, P l l.init.1
  clean : ∀ l, P l l.dispose.cleanup
  carry : ∀ s t, t.plan = s.plan → t.overrides = s.overrides → P s.ledger t.ledger → Q s t
  states : ∀ s a states o l, s.overrides.overrideStates s.ledger a states = .ok (o, l) →
    Q s { s with overrides := o, ledger := l }
  deployment : ∀ s a o l, s.overrides.overrideDeployment s.ledger a = .ok (o, l) →
    Q s { s with overrides := o, ledger := l }
  purge : ∀ s, Q s { s with ledger := s.overrides.purge s.ledger, overrides := [] }

namespace Stage

structure Along (P : Ledger → Ledger → Prop) (s t : Stage) : Prop where
  plan : t.plan = s.plan
  ledger : P s.ledger t.ledger

variable {P : Ledger → Ledger → Prop} [IsPreorder Ledger P]

instance : IsPreorder Stage (Along P) where
  refl := fun s => ⟨rfl, refl s.ledger⟩
  trans := fun _ _ _ h h' => ⟨h'.plan.trans h.plan, trans_of P h.ledger h'.ledger⟩

end Stage

open Stage

namespace Stages

variable {P : Ledger → Ledger → Prop} [IsPreorder Ledger P] (hP : Stages P)

include hP

lemma purge (o : Overrides) (l : Ledger) : P l (o.purge l) := by
  let restore (l : Ledger) (entry : Address × Snapshot) : Ledger :=
    l.modifyContract entry.1 (·.applySnapshot entry.2)
  have hback : P l (o.foldl restore l) := by
    induction o generalizing l with
    | nil => exact refl l
    | cons entry o ih =>
      have hfirst : P l (restore l entry) := hP.change l entry.1 _ fun _ => rfl
      exact trans_of P hfirst (ih _)
  rw [Overrides.purge]
  split
  · exact hback
  · exact trans_of P hback (hP.note _ _ _)

lemma overrideStates {o o' : Overrides} {l m : Ledger} {a : Address} {states : Storage}
    (h : o.overrideStates l a states = .ok (o', m)) : P l m := by
  rw [Overrides.overrideStates] at h
  cases hc : l.contract? a with
  | error f =>
    rw [hc] at h
    cases h
  | ok c =>
    rw [hc] at h
    cases h
    have hset : P l (l.modifyContract a (·.setStates states)) := hP.change l a _ fun _ => rfl
    exact trans_of P hset (hP.note _ _ _)

omit [IsPreorder Ledger P] in
lemma overrideDeployment {o o' : Overrides} {l m : Ledger} {a : Address}
    (h : o.overrideDeployment l a = .ok (o', m)) : P l m := by
  rw [Overrides.overrideDeployment] at h
  cases hc : l.contract? a with
  | error f =>
    rw [hc] at h
    cases h
  | ok c =>
    rw [hc] at h
    cases h
    exact hP.change l a _ fun _ => rfl

lemma works : Works P (Along P) where
  toEnlists := hP.toEnlists
  notices := hP.notices
  actors := hP.actors
  init := hP.init
  clean := hP.clean
  carry := fun _ _ hplan _ hledger => ⟨hplan, hledger⟩
  states := fun _ _ _ _ _ h => ⟨rfl, hP.overrideStates h⟩
  deployment := fun _ _ _ _ h => ⟨rfl, hP.overrideDeployment h⟩
  purge := fun _ => ⟨rfl, hP.purge _ _⟩

end Stages

namespace Works

variable {P : Ledger → Ledger → Prop} {Q : Stage → Stage → Prop} (hQ : Works P Q) {s : Stage}

include hQ

lemma leads_modifyLedger {g : Ledger → Ledger} (h : P s.ledger (g s.ledger)) :
    Leads Q s (modifyLedger g) :=
  .modify (hQ.carry _ _ rfl rfl h)

lemma leads_note (level : Level) (text : Text) : Leads Q s (Stage.note level text) :=
  hQ.leads_modifyLedger (hQ.note _ _ _)

lemma leads_purge : Leads Q s Stage.purge := .modify (hQ.purge s)

variable [IsPreorder Ledger P] [IsPreorder Stage Q]

omit [IsPreorder Stage Q] in
lemma leads_modify {g : Stage → Stage} (hplan : (g s).plan = s.plan)
    (hoverrides : (g s).overrides = s.overrides) (hledger : (g s).ledger = s.ledger) :
    Leads Q s (modify g : Staged PUnit) :=
  .modify (hQ.carry _ _ hplan hoverrides (hledger.symm ▸ refl s.ledger))

lemma leads_loadCode (c : ContractPlan) : Leads Q s (loadCode c) := by
  rw [loadCode]
  refine .bind_get (.bind_lift fun path _ => .bind_lift fun loaded hloaded => ?_)
  rw [Ledger.loadCode] at hloaded
  cases hread : s.disk.readOr path (.missingCode (.unreadable c.address path)) with
  | error f =>
    rw [hread] at hloaded
    cases hloaded
  | ok own =>
    rw [hread] at hloaded
    cases hloaded
    exact hQ.leads_modifyLedger (trans_of P (hQ.code _ _ _) (hQ.note _ _ _))

omit [IsPreorder Ledger P] in
lemma leads_registerOne (c : ContractPlan) : Leads Q s (registerOne c) := by
  rw [registerOne]
  exact .bind_get (.bind_lift fun l hl =>
    .set (hQ.carry _ _ rfl rfl (hQ.register _ _ _ rfl rfl hl)))

lemma leads_registerContracts : Leads Q s registerContracts := by
  rw [registerContracts]
  refine (hQ.leads_modify rfl rfl rfl).bind fun _ t => .bind_get ?_
  exact (Leads.forIn fun c u => hQ.leads_registerOne c).bind fun _ u => .pure _

omit [IsPreorder Ledger P] in
lemma leads_initLedger : Leads Q s initLedger := by
  rw [initLedger]
  exact .bind_get ((hQ.leads_modifyLedger (hQ.init s.ledger)).bind fun _ t => .lift _)

omit [IsPreorder Ledger P] in
lemma leads_seed (height : Int) (c : ContractPlan) : Leads Q s (seed height c) := by
  rw [seed]
  cases c.states with
  | none => exact .pure _
  | some feed =>
    refine (hQ.leads_note _ _).bind fun _ t => .bind_get ?_
    refine (Leads.modify (hQ.carry _ _ rfl rfl (hQ.notices _ _))).bind fun _ u => ?_
    refine .bind_lift fun states _ => .bind_get (.bind_lift fun seeded hseeded => ?_)
    refine .bind_lift fun marked hmarked => .set ?_
    have hfirst := hQ.states u c.address states seeded.1 seeded.2 hseeded
    exact trans_of Q hfirst (hQ.deployment _ _ _ _ hmarked)

lemma leads_reload (height : Int) :
    Leads (fun s => Q { s with
      ledger := (s.overrides.purge s.ledger).dispose.cleanup, overrides := [] }) s
      (loadStates height) := by
  intro r t hrun
  have hrest : Leads Q
      { s with ledger := (s.overrides.purge s.ledger).dispose.cleanup, overrides := [] } (do
        registerContracts
        initLedger
        for c in (← get).plan.contracts do seed height c) := by
    refine hQ.leads_registerContracts.bind fun _ v => hQ.leads_initLedger.bind fun _ w => ?_
    exact .bind_get ((Leads.forIn fun c x => hQ.leads_seed height c).bind fun _ x => .pure _)
  exact hrest r t hrun

omit [IsPreorder Ledger P] in
lemma emptied (s : Stage) : Q s { s with
    ledger := (s.overrides.purge s.ledger).dispose.cleanup, overrides := [] } := by
  refine trans_of Q (hQ.purge s) (hQ.carry _ _ ?_ ?_ (hQ.clean _)) <;> rfl

lemma leads_loadStates (height : Int) : Leads Q s (loadStates height) := fun r t hrun =>
  trans_of Q (hQ.emptied s) (hQ.leads_reload height r t hrun)

lemma leads_cleanUp : Leads Q s cleanUp := by
  rw [cleanUp]
  refine (hQ.leads_modify rfl rfl rfl).bind fun _ t => hQ.leads_purge.bind fun _ u => ?_
  exact hQ.leads_modifyLedger (hQ.clean _)

lemma leads_setUp : Leads Q s setUp := by
  rw [setUp]
  refine .bind_get ((hQ.leads_modifyLedger (hQ.actors _ _ _)).bind fun _ t => ?_)
  refine (Leads.forIn fun c u => hQ.leads_loadCode c).bind fun _ u => ?_
  refine hQ.leads_registerContracts.bind fun _ v => hQ.leads_initLedger.bind fun _ w => ?_
  exact .bind_get (hQ.leads_note _ _)

end Works

lemma Leads.replayFrom {Q : Stage → Stage → Prop} [IsPreorder Stage Q] {fuel : Nat}
    {ignoreUnknown allowReverts : Bool}
    (hload : ∀ s height, Leads Q s (Stage.loadStates height))
    (hblock : ∀ s height, Leads Q s (Stage.replayBlock fuel height ignoreUnknown allowReverts))
    (keepStates seeded : Bool) (n : Nat) (height : Int) {s : Stage} :
    Leads Q s
      (Stage.replayFrom fuel keepStates ignoreUnknown allowReverts seeded n height) := by
  induction n generalizing s seeded height with
  | zero => exact .pure _
  | succ n ih =>
    have hrest (t : Stage) : Leads Q t (do
        let result ← Stage.replayBlock fuel height ignoreUnknown allowReverts
        if !result.isOk then return [result]
        return result :: (← Stage.replayFrom fuel keepStates ignoreUnknown allowReverts true n
          (height + 1))) :=
      (hblock t height).bind fun result u =>
        .ite (.pure _) ((ih true (height + 1)).bind fun _ _ => .pure _)
    rw [Stage.replayFrom]
    exact .ite ((hload s (height - 1)).bind fun _ t => hrest t) (hrest s)

end ChainReplay
