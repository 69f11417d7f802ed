import ChainReplay.Proofs.Execution.Likeness
import ChainReplay.Proofs.Ledger.Storage

/-! Properties of frames that last through a run. A run whose nested calls are cut off later behaves
as the one that it was, and keeps them too. -/

namespace ChainReplay

/-- A change of a contract that leaves its address, and does not take its deployment back. -/
structure Steady (k : Contract → Contract) : Prop where
  address : ∀ c, (k c).address = c.address
  deployed : ∀ c, c.deployed = true → (k c).deployed = true

lemma Tending.steady {k : Contract → Contract} (h : Tending k) : Steady k :=
  ⟨h.address, fun c hc => (h.deployed c).trans hc⟩

lemma Tending.states {k : Contract → Contract} (h : Tending k) (c : Contract) :
    (k c).states = c.states := by
  have hc := h.blind c c.states
  exact (congrArg Contract.states hc).trans rfl

structure Lasting (I : Frame → Prop) : Prop where
  book : ∀ f k, I f → Bookkeeping k → I { f with ledger := k f.ledger }
  own : ∀ f k, I f → Steady k → I (f.modifyContract k)
  other : ∀ f a k, I f → Tending k → I { f with ledger := f.ledger.modifyContract a k }
  deployments : ∀ f d, I f → I { f with deployments := d }

def Same (I : Frame → Prop) (f g : Frame) : Prop := f = g ∧ I f

namespace Lasting

open Run

variable {α γ δ : Type} {I : Frame → Prop} {R : γ → δ → Prop}

lemma alike (hI : Lasting I) : Alike (Same I) where
  contract := by
    rintro f _ ⟨rfl, _⟩
    exact ⟨f.contract.states, rfl⟩
  ledger := by
    rintro f _ ⟨rfl, _⟩
    exact ⟨f.ledger.contracts, rfl⟩
  book := by
    rintro f _ k ⟨rfl, h⟩ hk
    exact ⟨rfl, hI.book f k h hk⟩
  tend := by
    rintro f _ k ⟨rfl, h⟩ hk
    exact ⟨rfl, hI.own f k h hk.steady⟩

lemma bind_contract {k : Contract → Run γ} {m : Contract → Run δ}
    (h : ∀ c, Simulates (Same I) R (k c) (m c)) :
    Simulates (Same I) R (Run.contract >>= k) (Run.contract >>= m) := by
  refine Alike.bind_eq (.step outcome_contract outcome_contract ?_ fun _ _ hS => hS) h
  rintro f _ ⟨rfl, _⟩
  rfl

lemma bind_ledger {k : Ledger → Run γ} {m : Ledger → Run δ}
    (h : ∀ l, Simulates (Same I) R (k l) (m l)) :
    Simulates (Same I) R (Run.ledger >>= k) (Run.ledger >>= m) := by
  refine Alike.bind_eq (.step outcome_ledger outcome_ledger ?_ fun _ _ hS => hS) h
  rintro f _ ⟨rfl, _⟩
  rfl

lemma modifyContract (hI : Lasting I) {k : Contract → Contract} (hk : Steady k) :
    Simulates (Same I) Eq (Run.modifyContract k) (Run.modifyContract k) := by
  refine .step (outcome_modifyContract k) (outcome_modifyContract k) (fun _ _ _ => rfl) ?_
  rintro f _ ⟨rfl, h⟩
  exact ⟨rfl, hI.own f k h hk⟩

lemma loadPointer (hI : Lasting I) (pointer : Int) :
    Simulates (Same I) Eq (Host.loadPointer pointer) (Host.loadPointer pointer) := by
  rw [Host.loadPointer]
  refine bind_contract fun c => bind_ledger fun l => ?_
  exact Alike.optional (hI.alike.note _ _) (.pure rfl)

lemma storePointer (hI : Lasting I) (pointer value : Int) :
    Simulates (Same I) Eq (Host.storePointer pointer value) (Host.storePointer pointer value) := by
  rw [Host.storePointer]
  refine bind_contract fun c => bind_ledger fun l => ?_
  exact Alike.optional (hI.alike.note _ _) (hI.modifyContract ⟨fun _ => rfl, fun _ h => h⟩)

variable {call call' : Address → Bytes → Run CallResponse}

lemma answer (hI : Lasting I)
    (hcall : ∀ target calldata,
      Simulates (Same I) Eq (call target calldata) (call' target calldata))
    (request : HostFunction) (data : Bytes) :
    Simulates (Same I) Eq (Host.answer call request data) (Host.answer call' request data) := by
  by_cases hl : request = .load
  · subst hl
    refine Alike.bind_eq (Alike.lift _) fun pointer => ?_
    exact Alike.bind_eq (hI.loadPointer _) fun value => Alike.lift _
  by_cases hs : request = .store
  · subst hs
    refine Alike.bind_eq (Alike.lift _) fun entry => ?_
    exact Alike.bind_eq (hI.storePointer _ _) fun _ => .pure rfl
  by_cases hn : request = .nextPointer
  · subst hn
    exact Alike.bind_eq (Alike.lift _) fun query => bind_contract fun c => Alike.lift _
  exact hI.alike.answer hcall request data hl hs hn

lemma construct (hI : Lasting I)
    (hcall : ∀ target calldata,
      Simulates (Same I) Eq (call target calldata) (call' target calldata)) :
    Simulates (Same I) Eq (construct call) (construct call') := by
  rw [Run.construct]
  refine Alike.bind_eq hI.alike.load fun handle => bind_contract fun c => ?_
  refine Alike.bind_eq (hI.alike.setEnvironment _) fun record => ?_
  refine Alike.bind_eq (hI.alike.enter _) fun _ => ?_
  exact Alike.bind_eq (hI.alike.interpret (hI.answer hcall) _ _ _) fun _ => .pure rfl

lemma deploy (hI : Lasting I)
    (hcall : ∀ target calldata,
      Simulates (Same I) Eq (call target calldata) (call' target calldata)) :
    Simulates (Same I) Eq (deploy call) (deploy call') := by
  rw [Run.deploy]
  refine bind_contract fun c => .ite _ (.pure rfl) (.ite _ ?_ ?_)
  · exact Alike.bind_eq (hI.modifyContract ⟨fun _ => rfl, fun _ _ => rfl⟩) fun _ => .pure rfl
  refine (hI.construct hcall).attempt.bind fun q r hqr => ?_
  cases hqr.eq
  cases q with
  | error e =>
    refine Alike.bind_eq (hI.modifyContract ⟨fun _ => rfl, fun _ h => h⟩) fun _ => ?_
    exact Alike.bind_eq hI.alike.dispose fun _ => .throw _
  | ok _ =>
    refine Alike.bind_eq (hI.modifyContract ⟨fun _ => rfl, fun _ _ => rfl⟩) fun _ => ?_
    refine bind_ledger fun l => .ite _ (bind_contract fun c => ?_) hI.alike.dispose
    exact Alike.bind_eq (hI.alike.note _ _) fun _ => hI.alike.dispose

lemma withdraw (hI : Lasting I) (deployments : List Deployment) (f : Frame) (h : I f) :
    I { f with ledger := withdraw f.ledger deployments } := by
  induction deployments generalizing f with
  | nil => exact h
  | cons d rest ih =>
    exact ih _ (hI.other f d.1 (forget d.2) h ⟨fun _ _ => rfl, fun _ => rfl, fun _ => rfl⟩)

lemma discardDeployments (hI : Lasting I) :
    Simulates (Same I) Eq discardDeployments discardDeployments := by
  refine .step outcome_discardDeployments outcome_discardDeployments (fun _ _ _ => rfl) ?_
  rintro f _ ⟨rfl, h⟩
  exact ⟨rfl, hI.deployments _ _ (hI.withdraw _ f h)⟩

lemma execute (hI : Lasting I)
    (hcall : ∀ target calldata,
      Simulates (Same I) Eq (call target calldata) (call' target calldata))
    (hdeploy : Simulates (Same I) Eq (Run.deploy call) (Run.deploy call')) (calldata : Bytes)
    (sender origin : Option Address) :
    Simulates (Same I) Eq (execute call calldata sender origin)
      (execute call' calldata sender origin) := by
  rw [Run.execute]
  refine hdeploy.attempt.bind fun q r hqr => ?_
  cases hqr.eq
  cases q with
  | error e => exact bind_contract fun c => .pure rfl
  | ok _ => ?_
  refine bind_contract fun before => Alike.bind_eq (.step (outcome_modify _) (outcome_modify _)
    (fun _ _ _ => rfl) ?_) fun _ => ?_
  · rintro f _ ⟨rfl, h⟩
    exact ⟨rfl, hI.deployments f [] h⟩
  refine (hI.alike.runMethod (hI.answer hcall) _ _).attempt.bind fun q r hqr => ?_
  cases hqr.eq
  cases q with
  | ok reply => exact bind_contract fun c => .pure rfl
  | error e =>
    refine Alike.bind_eq (hI.modifyContract ⟨fun _ => rfl, fun _ h => h⟩) fun _ => ?_
    refine Alike.bind_eq hI.discardDeployments fun _ => bind_contract fun c => ?_
    refine Alike.bind_eq (hI.alike.note _ _) fun _ => ?_
    exact Alike.bind_eq hI.alike.dispose fun _ => .pure rfl

end Lasting

end ChainReplay
