import ChainReplay.Proofs.Execution.Reenactment
import ChainReplay.Proofs.Execution.Revival

/-! Runs on a ledger that has been set back. They do what they do on the first ledger, as long as they do
not ask for a copy that only one of the two has on record, or for code that only the second one knows. -/

namespace ChainReplay

open Run

/-- The same run leads from frames of which the second is set back to such frames again. -/
abbrev Resumes (w : Residue) (s : Accord) (p : Post) {α β : Type} (R : α → β → Prop) (x : Run α)
    (y : Run β) : Prop :=
  Simulates (Frame.Revived w s p) R x y

structure Accord.Covers (s : Accord) (p : Post) : Prop where
  deployed : s.deployedAt p
  loaded : s.loadedAt p

namespace Resumes

variable {w : Residue} {s t : Accord} {p : Post} {α β γ δ : Type} {R : α → β → Prop}

lemma contract : Resumes w s p (fun c d => c.address = p.address ∧
    c.Revived w (s.deployedAt p) (s.loadedAt p) d) Run.contract Run.contract :=
  .step outcome_contract outcome_contract (fun _ _ hfg => ⟨hfg.address, hfg.contract⟩)
    fun _ _ hfg => hfg

lemma ledger : Resumes w s p (fun l l' => l.Revived w s l' ∧ l.Faces l') Run.ledger Run.ledger :=
  .step outcome_ledger outcome_ledger (fun _ _ hfg => ⟨hfg.ledger, hfg.faces⟩) fun _ _ hfg => hfg

lemma bind_contract {k : Contract → Run α} {m : Contract → Run β}
    (h : ∀ c d, c.address = p.address → c.Revived w (s.deployedAt p) (s.loadedAt p) d →
      Resumes w s p R (k c) (m d)) :
    Resumes w s p R (Run.contract >>= k) (Run.contract >>= m) :=
  contract.bind fun c d hcd => h c d hcd.1 hcd.2

lemma bind_ledger {k : Ledger → Run α} {m : Ledger → Run β}
    (h : ∀ l l', l.Revived w s l' → l.Faces l' → Resumes w s p R (k l) (m l')) :
    Resumes w s p R (Run.ledger >>= k) (Run.ledger >>= m) :=
  ledger.bind fun l l' hl => h l l' hl.1 hl.2

lemma modifyContract {k k' : Contract → Contract}
    (hk : ∀ c d, c.address = p.address → c.Revived w (s.deployedAt p) (s.loadedAt p) d →
      (k c).Revived w (s.deployedAt p) (s.loadedAt p) (k' d))
    (haddress : ∀ c, (k c).address = c.address) (hcode : ∀ c, (k c).code = c.code) :
    Resumes w s p Eq (Run.modifyContract k) (Run.modifyContract k') := by
  refine .step (outcome_modifyContract k) (outcome_modifyContract k') (fun _ _ _ => rfl) ?_
  intro f g hfg
  exact hfg.modifyContract (hk _ _ hfg.address hfg.contract) ((Accord.Within.refl s).beyond p)
    haddress hcode

lemma modifyLedger {k k' : Ledger → Ledger}
    (hk : ∀ l l', l.Revived w s l' → (k l).Revived w s (k' l')) :
    Resumes w s p Eq (Run.modifyLedger k) (Run.modifyLedger k') :=
  .step (outcome_modifyLedger k) (outcome_modifyLedger k') (fun _ _ _ => rfl)
    fun _ _ hfg => hfg.withLedger (hk _ _ hfg.ledger)

lemma enter (e e' : Entry) : Resumes w s p Eq (Run.enter e) (Run.enter e') :=
  modifyLedger fun _ _ hl => hl.withBooks _ _ _ _ _ _

lemma note (level level' : Level) (text text' : Text) :
    Resumes w s p Eq (Run.note level text) (Run.note level' text') :=
  modifyLedger fun _ _ hl => hl.withBooks _ _ _ _ _ _

lemma count {n n' : Nat} (h : n + w.offset.second = n' + w.offset.first) :
    Resumes w s p Eq (Run.modifyLedger fun l => { l with handles := n })
      (Run.modifyLedger fun l => { l with handles := n' }) :=
  modifyLedger fun _ _ hl =>
    ⟨hl.surface, hl.keys, hl.contracts, hl.filed, hl.resolved, hl.codes, h⟩

lemma code_dispose (c : Contract) : c.dispose.code = c.code := by
  rw [Contract.dispose]
  split <;> rfl

lemma dispose : Resumes w s p Eq Run.dispose Run.dispose := by
  rw [Run.dispose]
  refine bind_contract fun c d _ _ => Alike.bind_eq ?_ fun _ => ?_
  · exact modifyLedger fun _ _ hl => hl.withBooks _ _ _ _ _ _
  · exact modifyContract (fun _ _ _ hcd => hcd.dispose) Alike.tending_dispose.address code_dispose

lemma equip : Resumes w s p (Handle.Counterpart w.offset) Run.equip Run.equip := by
  rw [Run.equip]
  refine bind_contract ?_
  rintro c _ - ⟨-, -, -⟩
  refine bind_ledger ?_
  rintro l _ hl ⟨codes, contracts, retired, handles, journal, notices⟩
  refine Alike.bind_eq (Alike.lift c.code?) fun code => ?_
  refine Alike.bind_eq (Alike.lift l.engine?) fun engine => ?_
  have hcount : l.handles + 1 + w.offset.second = handles + 1 + w.offset.first := by
    have hhandles : l.handles + w.offset.second = handles + w.offset.first := hl.handles
    omega
  refine Alike.bind_eq (count hcount) fun _ => Alike.bind_eq (enter _ _) fun _ => ?_
  refine Alike.bind_eq (Alike.lift (engine.instantiate _)) fun program => ?_
  have hhandle : Handle.Counterpart w.offset ⟨l.handles + 1, 0, program⟩
      ⟨handles + 1, 0, program⟩ := .intro hcount
  refine Alike.bind_eq ?_ fun _ => .pure hhandle
  exact modifyContract (fun _ _ _ hcd => hcd.equipped hhandle) (fun _ => rfl) fun _ => rfl

/-- Loading brings what the last call has left behind into accord, even if it fails. -/
lemma load : Passes (Frame.Revived w s p) (Frame.Revived w (s.load p) p)
    (Frame.Revived w (s.load p) p) (Handle.Counterpart w.offset) Run.load Run.load := by
  intro f g hfg q f' hx
  have hload (f : Frame) : Run.load.outcome f = Run.equip.outcome
      (Frame.modifyContract { f with ledger := f.ledger.enter f.contract.disposal }
        (begun ∘ Contract.dispose)) := by
    rw [load_eq, outcome_bind, outcome_dispose, Outcome.some_andThen]
    simp only
    rw [outcome_bind, outcome_modifyContract, Outcome.some_andThen,
      Frame.modifyContract_modifyContract]
  rw [hload] at hx ⊢
  have hentered := hfg.withLedger (hfg.ledger.withBooks f.ledger.retired g.ledger.retired
    (f.ledger.journal ++ f.contract.disposal) (g.ledger.journal ++ g.contract.disposal)
    f.ledger.notices g.ledger.notices)
  refine Passes.of_simulates equip (fun _ _ h => h) _ _ ?_ q f' hx
  exact hentered.modifyContract (t := s.load p) (hentered.contract.begun _) (s.beyond_load p)
    Alike.tending_dispose.address code_dispose

lemma setEnvironment (hs : s.loadedAt p) (given : EnvironmentGiven) :
    Resumes w s p Eq (setEnvironment given) (setEnvironment given) := by
  rw [Run.setEnvironment]
  refine bind_contract fun c d _ hcd => bind_ledger ?_
  rintro l _ hl ⟨codes, contracts, retired, handles, journal, notices⟩
  have hrecord : environmentRecord l c given = environmentRecord
      { l with codes, contracts, retired, handles, journal, notices } d given := by
    obtain ⟨-, -, -⟩ := hcd
    rfl
  rw [hrecord]
  refine Alike.bind_eq (Alike.lift _) fun record => Simulates.bind (.lift (hcd.handle? hs)) ?_
  rintro h _ ⟨number⟩
  refine Alike.bind_eq (enter _ _) fun _ => ?_
  cases h.program.refusal with
  | some e => exact .throw e
  | none => exact .pure rfl

lemma observeGas (gas : Int) (method : Text) :
    Resumes w s p Eq (Host.observeGas gas method) (Host.observeGas gas method) := by
  rw [Host.observeGas]
  refine bind_ledger ?_
  rintro l _ hl ⟨⟩
  exact .ite _ (bind_contract fun _ _ _ _ => note _ _ _ _) (.pure rfl)

lemma meter {number number' : Nat} (h : number + w.offset.second = number' + w.offset.first)
    (gas : Int) :
    Resumes w s p Eq (Run.modifyContract (·.meter number gas))
      (Run.modifyContract (·.meter number' gas)) :=
  modifyContract (fun _ _ _ hcd => hcd.meter h gas) (fun _ => rfl) fun _ => rfl

lemma discardDeployments : Resumes w s p Eq discardDeployments discardDeployments := by
  refine .step outcome_discardDeployments outcome_discardDeployments (fun _ _ _ => rfl) ?_
  intro f g hfg
  have hsame : SameDeployments w f.deployments.reverse g.deployments.reverse := by
    intro owner child hchild
    rw [List.mem_reverse, List.mem_reverse]
    exact hfg.deployments owner child hchild
  exact (hfg.withLedger (hfg.ledger.withdraw hsame)).withDeployments fun _ _ _ => .rfl

lemma pure_response (hs : s.loadedAt p) {c d : Contract}
    (h : c.Revived w (s.deployedAt p) (s.loadedAt p) d) (result : Except Failure Bytes) :
    Resumes w s p Eq
      (pure (⟨result, c.events, c.callStack, (c.handle.map (·.gas)).getD 0⟩ : CallResponse))
      (pure (⟨result, d.events, d.callStack, (d.handle.map (·.gas)).getD 0⟩ : CallResponse)) := by
  rw [h.gas hs]
  obtain ⟨-, -, hremains⟩ := h
  obtain ⟨rfl, rfl, -⟩ := hremains hs
  exact .pure rfl

lemma mono {x : Run α} {y : Run β} (h : Resumes w t p R x y) (hst : s.Within t) :
    Passes (Frame.Revived w t p) (Frame.Revived w s p) (Frame.Revived w s p) R x y :=
  (Passes.of_simulates h fun _ _ hfg => hfg).mono (fun _ _ hfg => hfg.mono hst)
    fun _ _ hfg => hfg.mono hst

lemma settling {c d : Contract} (hs : s.deployedAt p) (haddress : d.address = c.address)
    (r : Except Failure Unit) : Resumes w s p Eq (settling c r) (settling d r) := by
  cases r with
  | error e =>
    rw [Run.settling, Run.settling, haddress]
    refine Alike.bind_eq (modifyContract ?_ (fun _ => rfl) fun _ => rfl) fun _ => ?_
    · exact fun _ _ _ hcd => hcd.withStates hs []
    · exact Alike.bind_eq dispose fun _ => .throw _
  | ok _ =>
    rw [Run.settling, Run.settling]
    refine Alike.bind_eq (modifyContract ?_ (fun _ => rfl) fun _ => rfl) fun _ => ?_
    · exact fun _ _ _ hcd => hcd.constructed
    rw [announce, announce]
    refine bind_ledger ?_
    rintro l _ hl ⟨⟩
    refine .ite _ (bind_contract fun _ _ _ _ => ?_) dispose
    exact Alike.bind_eq (note _ _ _ _) fun _ => dispose

/-- What a deployment does if the constructor is not run. -/
def noted (f : Frame) : Frame := if f.contract.deployed then f else f.modifyContract marked

lemma outcome_deployOn (host : HostFunction → Bytes → Run Bytes) (f : Frame) :
    (deployOn host).outcome f =
      if f.contract.isNew then
        ((constructOn host).outcome f).andThen fun r g => (Run.settling f.contract r).outcome g
      else some (.ok ⟨⟩, noted f) := by
  rw [deployOn, outcome_bind, outcome_contract, Outcome.some_andThen, noted, Contract.isNew]
  simp only
  cases hc : f.contract.deployed <;> cases hs : f.contract.states.isEmpty <;>
    cases hd : f.contract.deploymentStates.isEmpty
  case false.true.true =>
    change (attempt (constructOn host) >>= _).outcome f =
      ((constructOn host).outcome f).andThen fun r g => (Run.settling f.contract r).outcome g
    rw [outcome_bind, outcome_attempt]
    rcases (constructOn host).outcome f with _ | ⟨_ | done, g⟩ <;> rfl
  all_goals rfl

lemma revived_noted {f g : Frame} (h : Frame.Revived w s p f g) :
    Frame.Revived w (s.deploy p) p (noted f) (noted g) := by
  have hcd := h.contract
  have hloaded : (s.deploy p).loadedAt p → s.loadedAt p := by
    cases p <;> exact id
  rw [noted, noted]
  cases hc : f.contract.deployed with
  | true =>
    have hd : g.contract.deployed = true := by
      revert hcd
      generalize f.contract = c at hc
      generalize g.contract = d
      rintro ⟨-, ⟨rfl, -⟩ | ⟨-, -, hfalse, -⟩, -⟩
      · exact hc
      · exact absurd (hc.symm.trans hfalse) nofun
    rw [if_pos rfl, if_pos hd]
    exact h.agree (hd.trans hc.symm)
  | false =>
    rw [if_neg Bool.false_ne_true]
    split
    case isTrue hd =>
      rw [← g.modifyContract_id]
      refine h.modifyContract ?_ (s.beyond_deploy p) (fun _ => rfl) fun _ => rfl
      have hmarked : (marked g.contract) = g.contract := by
        rw [marked, ← hd]
      rw [id, ← hmarked]
      exact (hcd.marked _).mono id hloaded
    case isFalse =>
      exact h.modifyContract ((hcd.marked _).mono id hloaded) (s.beyond_deploy p) (fun _ => rfl)
        fun _ => rfl

section Hosts

variable {host host' : HostFunction → Bytes → Run Bytes}
  (hh : ∀ s p, s.Covers p → ∀ request data, Resumes w s p Eq (host request data) (host' request data))

include hh

lemma interpret (hs : s.Covers p) {number number' : Nat}
    (h : number + w.offset.second = number' + w.offset.first) (program : Program) (gas : Int) :
    Resumes w s p Eq (interpret host number program gas) (interpret host' number' program gas) := by
  induction program generalizing gas with
  | done reply => exact .pure rfl
  | fail e => exact .throw e
  | ask request data next ih =>
    refine (hh s p hs request data).attempt.bind fun q r hqr => ?_
    cases hqr.eq
    cases q with
    | error e => exact ih (.error e) gas
    | ok bs =>
      exact .ite _ (Alike.bind_eq (enter _ _) fun _ => ih (.ok bs) gas) (ih (.ok bs) gas)
  | charge amount next ih =>
    refine Alike.bind_eq (meter h _) fun _ => ?_
    exact Alike.bind_eq (observeGas _ _) fun _ => ih _
  | caught e next ih => exact Alike.bind_eq (enter _ _) fun _ => ih gas

lemma runMethod (hs : s.deployedAt p) (calldata : Bytes) (given : EnvironmentGiven) :
    Passes (Frame.Revived w s p) (Frame.Revived w (s.load p) p) (Frame.Revived w (s.load p) p) Eq
      (runMethod host calldata given) (runMethod host' calldata given) := by
  have hcovers : (s.load p).Covers p := ⟨(s.within_load p).deployedAt hs, s.loadedAt_load p⟩
  rw [Run.runMethod, Run.runMethod]
  refine load.bind ?_
  rintro h _ ⟨number⟩
  refine Passes.of_simulates ?_ fun _ _ hfg => hfg
  refine Alike.bind_eq (setEnvironment hcovers.loaded given) fun record => ?_
  exact Alike.bind_eq (enter _ _) fun _ => interpret hh hcovers number _ _

lemma constructOn (hs : s.deployedAt p) :
    Passes (Frame.Revived w s p) (Frame.Revived w (s.load p) p) (Frame.Revived w (s.load p) p) Eq
      (constructOn host) (constructOn host') := by
  have hcovers : (s.load p).Covers p := ⟨(s.within_load p).deployedAt hs, s.loadedAt_load p⟩
  rw [Run.constructOn, Run.constructOn]
  refine load.bind ?_
  rintro h _ ⟨number⟩
  refine Passes.of_simulates ?_ fun _ _ hfg => hfg
  refine bind_contract ?_
  rintro c _ - ⟨-, -, -⟩
  refine Alike.bind_eq (setEnvironment hcovers.loaded _) fun record => ?_
  refine Alike.bind_eq (enter _ _) fun _ => ?_
  exact Alike.bind_eq (interpret hh hcovers number _ _) fun _ => .pure rfl

/-- A deployment brings the two contracts into accord, even if it fails. -/
lemma deployOn (hp : s.deployedAt p ∨ w.stale p.address = false) :
    Passes (Frame.Revived w s p) (Frame.Revived w (s.deploy p) p)
      (Frame.Revived w (s.deploy p) p) Eq (deployOn host) (deployOn host') := by
  intro f g hfg q f' hx
  have hsameNew : g.contract.isNew = f.contract.isNew :=
    hfg.contract.isNew (by rwa [hfg.address])
  rw [outcome_deployOn] at hx
  rw [outcome_deployOn, hsameNew]
  split at hx
  case isFalse hnew =>
    cases hx
    rw [if_neg hnew]
    exact ⟨_, _, rfl, .ok rfl (revived_noted hfg)⟩
  case isTrue hnew =>
    have hdeployed (c : Contract) (hc : c.isNew = true) : c.deployed = false := by
      rw [Contract.isNew, Bool.and_assoc, Bool.and_eq_true, Bool.not_eq_true'] at hc
      exact hc.1
    have hagreed : Frame.Revived w (s.deploy p) p f g := by
      refine hfg.agree ?_
      rw [hdeployed _ hnew, hdeployed _ (hsameNew.trans hnew)]
    have hat : (s.deploy p).deployedAt p := s.deployedAt_deploy p
    have hwithin := (s.deploy p).within_load p
    rw [if_pos hnew]
    obtain ⟨r, f₁, hconstruct, hx⟩ := Outcome.andThen_eq_some hx
    obtain ⟨r', g₁, hconstruct', hend⟩ := constructOn hh hat f g hagreed r f₁ hconstruct
    have hboth : r = r' ∧ Frame.Revived w ((s.deploy p).load p) p f₁ g₁ := by
      cases hend with
      | ok hr hfg₁ => exact ⟨by rw [hr], hfg₁⟩
      | error e hfg₁ => exact ⟨rfl, hfg₁⟩
    obtain ⟨rfl, hfg₁⟩ := hboth
    have haddress : g.contract.address = f.contract.address := by
      have hcd := hfg.contract
      revert hcd
      generalize f.contract = c
      generalize g.contract = d
      rintro ⟨-, -, -⟩
      rfl
    rw [hconstruct', Outcome.some_andThen]
    exact mono (settling (hwithin.deployedAt hat) haddress r) hwithin f₁ g₁ hfg₁ q f' hx

lemma executeOn (hp : s.deployedAt p ∨ w.stale p.address = false) (calldata : Bytes)
    (sender origin : Option Address) :
    Resumes w s p Eq (executeOn host calldata sender origin)
      (executeOn host' calldata sender origin) := by
  have hdeploy := s.within_deploy p
  have hload := (s.deploy p).within_load p
  have hat : (s.deploy p).deployedAt p := s.deployedAt_deploy p
  have hcovers : ((s.deploy p).load p).Covers p :=
    ⟨hload.deployedAt hat, (s.deploy p).loadedAt_load p⟩
  rw [Run.executeOn, Run.executeOn]
  refine Passes.simulates ((deployOn hh hp).attempt.bind fun q r hqr => ?_)
  cases hqr.eq
  cases q with
  | error e =>
    refine mono (bind_contract ?_) hdeploy
    rintro c _ - ⟨-, -, -⟩
    exact .pure rfl
  | ok _ => ?_
  refine (Passes.of_simulates contract fun _ _ hfg => hfg.mono hdeploy).bind ?_
  rintro before before' ⟨haddress, hbefore⟩
  -- Only what the method deploys is discarded if it fails.
  have hreset : Resumes w (s.deploy p) p Eq (modify fun f => { f with deployments := [] })
      (modify fun f => { f with deployments := [] }) :=
    .step (outcome_modify _) (outcome_modify _) (fun _ _ _ => rfl)
      fun f g hfg => hfg.withDeployments fun _ _ _ => .rfl
  refine (Passes.of_simulates hreset fun _ _ hfg => hfg.mono hdeploy).bind fun _ _ _ => ?_
  refine (runMethod hh hat _ _).attempt.bind fun q r hqr => ?_
  cases hqr.eq
  refine mono ?_ (hdeploy.trans hload)
  have hsame : before'.address = before.address ∧ before'.states = before.states := by
    obtain ⟨-, -, -⟩ := hbefore
    exact ⟨rfl, rfl⟩
  rw [hsame.1, hsame.2]
  cases q with
  | ok reply => exact bind_contract fun c d _ hcd => pure_response hcovers.loaded hcd _
  | error e =>
    -- Storage and records are put back to what they were before the method.
    refine Alike.bind_eq (modifyContract ?_ (fun _ => rfl) fun _ => rfl) fun _ => ?_
    · intro c d hc hcd
      refine (hcd.withStates hcovers.deployed before.states).withChildren fun child hchild => ?_
      refine hbefore.contains_children ?_
      rwa [haddress, ← hc]
    refine Alike.bind_eq discardDeployments fun _ => bind_contract fun c d _ hcd => ?_
    refine Alike.bind_eq (note _ _ _ _) fun _ => Alike.bind_eq dispose fun _ => ?_
    exact pure_response hcovers.loaded hcd _

end Hosts

end Resumes

end ChainReplay
