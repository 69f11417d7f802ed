import ChainReplay.Proofs.Execution.Rollback

/-! Execution with one storage for each address: the one that the registry holds. Every activation
of an address reads it and writes it directly, and an activation that fails puts it back to what it
was when the activation began. All else is as in execution on copies. -/

namespace ChainReplay

namespace Run

/-- A nested call in which `respond` runs on the copy, and `settle` says which storage is carried
over in the end. -/
def nestedCall (call : Address → Bytes → Run CallResponse)
    (respond : Option Address → Option Address → Run CallResponse)
    (settle : Ledger → Contract → Contract) (target : Address) (calldata : Bytes) :
    Run CallResponse := do
  openCall call target
  let copy ← copyTarget target
  let caller ← contract
  let origin := (← ledger).origin
  let (outcome, seat, deployments) ← inSeat (.apart copy)
    (receive calldata (respond (some caller.address) (some origin)))
  let l ← ledger
  closeCall target (settle l (seat.contract l)) deployments (← lift outcome)

lemma callWith_eq (call : Address → Bytes → Run CallResponse) (target : Address)
    (calldata : Bytes) :
    callWith call target calldata =
      nestedCall call (execute call calldata) (fun _ c => c) target calldata := rfl

end Run

namespace Shared

open Format Run

def withShared (l : Ledger) (c : Contract) : Contract :=
  { c with states := (l.storage? c.address).getD [] }

def contract : Run Contract := do
  let c ← Run.contract
  return withShared (← ledger) c

def change (k : Storage → Storage) : Run Unit := do
  let c ← Run.contract
  modifyLedger (·.modifyContract c.address fun c => { c with states := k c.states })

def loadPointer (pointer : Int) : Run Int := do
  let c ← contract
  let value := c.states.load pointer
  if (← ledger).tracePointers then
    note .debug (c.address.text ++ " load pointer " ++ .ofInt pointer ++ " -> " ++ .ofInt value)
  return value

def storePointer (pointer value : Int) : Run Unit := do
  let c ← contract
  if (← ledger).tracePointers then
    note .debug (c.address.text ++ " store pointer " ++ .ofInt pointer ++ " <- " ++ .ofInt value)
  change (·.store pointer value)

def answer (call : Address → Bytes → Run CallResponse) (request : HostFunction) (data : Bytes) :
    Run Bytes := do
  match request with
  | .load =>
    let pointer : Int ← lift (u256.decode data)
    lift (u256.encode (← loadPointer pointer))
  | .store =>
    let entry : Int × Int ← lift (Host.storeFormat.decode data)
    storePointer entry.1 entry.2
    return [1]
  | .nextPointer =>
    let query : Int × Int × Bool ← lift (Host.nextFormat.decode data)
    lift (u256.encode ((← contract).states.nextPointer query.1 query.2.1 query.2.2))
  | request => Host.answer call request data

def putBack (before : Contract) : Run Unit := do
  modifyContract fun c => { c with children := before.children }
  change fun _ => before.states

/-- Calls the contract. If the call fails, the storage of its address is put back, and so are the
deployment records. -/
def execute (call : Address → Bytes → Run CallResponse) (calldata : Bytes)
    (sender origin : Option Address) : Run CallResponse := do
  match ← attempt (deploy call) with
  | .error f => return ⟨.error f, [], [(← Run.contract).address], 0⟩
  | .ok _ => pure ()
  let before ← contract
  modify fun f => { f with deployments := [] }
  let outcome ← attempt (runMethod (answer call) calldata (.caller sender origin))
  let outcome := outcome.mapError (·.wrap before.address)
  if outcome.toOption.isNone then
    putBack before
    discardDeployments
  let c ← Run.contract
  let used := (c.handle.map (·.gas)).getD 0
  match outcome with
  | .ok _ => pure ()
  | .error f =>
    let detail := (f.fault?.map (·.detail)).getD []
    note .debug ("call into " ++ c.address.text ++ " failed: " ++ detail)
    dispose
  return ⟨outcome, c.events, c.callStack, used⟩

def call : Nat → Address → Bytes → Run CallResponse
  | 0, _, _ => outOfFuel
  | n + 1, target, calldata =>
    nestedCall (call n) (execute (call n) calldata) withShared target calldata

end Shared

end ChainReplay

/-! Frames of which the second keeps in its registry the storage that the running contract of the
first has. Execution on copies does on the first what shared execution does on the second. -/

namespace ChainReplay

lemma Frame.modifyContract_modifyContract (f : Frame) (k m : Contract → Contract) :
    (f.modifyContract k).modifyContract m = f.modifyContract (m ∘ k) := by
  obtain ⟨l, seat, deployments⟩ := f
  cases seat with
  | registered a => simp only [Frame.modifyContract, Table.modify_modify]
  | apart c => rfl

def restoring (k : Storage → Storage) (c : Contract) : Contract := { c with states := k c.states }

structure Sharing (S : Frame → Frame → Prop) : Prop extends Alike S where
  storage : ∀ f g, S f g →
    (g.ledger.storage? f.contract.address).getD [] = f.contract.states
  change : ∀ f g k, S f g → S (f.modifyContract (restoring k))
    { g with ledger := g.ledger.modifyContract f.contract.address (restoring k) }
  deployments : ∀ f g, S f g → g.deployments = f.deployments
  withDeployments : ∀ f g d, S f g → S { f with deployments := d } { g with deployments := d }
  other : ∀ f g a k, S f g → Tending k →
    S { f with ledger := f.ledger.modifyContract a k }
      { g with ledger := g.ledger.modifyContract a k }

namespace Sharing

open Run

variable {γ δ : Type} {S : Frame → Frame → Prop} {R : γ → δ → Prop}

lemma outcome_contract (g : Frame) :
    Shared.contract.outcome g = some (.ok (Shared.withShared g.ledger g.contract), g) := rfl

lemma outcome_change (k : Storage → Storage) (g : Frame) :
    (Shared.change k).outcome g = some (.ok ⟨⟩,
      { g with ledger := g.ledger.modifyContract g.contract.address (restoring k) }) := rfl

lemma withShared_with {l : Ledger} {c : Contract} {s : Storage}
    (h : (l.storage? c.address).getD [] = c.states) :
    Shared.withShared l { c with states := s } = c := by
  change { c with states := (l.storage? c.address).getD [] } = c
  rw [h]

lemma bind_contract (hS : Sharing S) {k : Contract → Run γ} {m : Contract → Run δ}
    (h : ∀ c, Simulates S R (k c) (m c)) :
    Simulates S R (Run.contract >>= k) (Shared.contract >>= m) := by
  refine Alike.bind_eq (.step Run.outcome_contract outcome_contract (fun f g hfg => ?_)
    fun _ _ hfg => hfg) h
  obtain ⟨s, hs⟩ := hS.contract f g hfg
  rw [hs, withShared_with (hS.storage f g hfg)]

lemma change_shared (hS : Sharing S) (k : Storage → Storage) :
    Simulates S Eq (Run.modifyContract (restoring k)) (Shared.change k) := by
  refine .step (outcome_modifyContract _) (outcome_change k) (fun _ _ _ => rfl) fun f g hfg => ?_
  obtain ⟨s, hs⟩ := hS.contract f g hfg
  rw [hs]
  exact hS.change f g k hfg

lemma loadPointer (hS : Sharing S) (pointer : Int) :
    Simulates S Eq (Host.loadPointer pointer) (Shared.loadPointer pointer) := by
  refine hS.bind_contract fun c => hS.bind_ledger fun l _ => ?_
  exact Alike.optional (hS.note _ _) (.pure rfl)

lemma storePointer (hS : Sharing S) (pointer value : Int) :
    Simulates S Eq (Host.storePointer pointer value) (Shared.storePointer pointer value) := by
  refine hS.bind_contract fun c => hS.bind_ledger fun l _ => ?_
  exact Alike.optional (hS.note _ _) (hS.change_shared (·.store pointer value))

variable {call call' : Address → Bytes → Run CallResponse}

lemma answer (hS : Sharing S)
    (hcall : ∀ target calldata, Simulates S Eq (call target calldata) (call' target calldata))
    (request : HostFunction) (data : Bytes) :
    Simulates S Eq (Host.answer call request data) (Shared.answer call' request data) := by
  cases request with
  | load =>
    refine Alike.bind_eq (Alike.lift _) fun pointer => ?_
    exact Alike.bind_eq (hS.loadPointer _) fun value => Alike.lift _
  | store =>
    refine Alike.bind_eq (Alike.lift _) fun entry => ?_
    exact Alike.bind_eq (hS.storePointer _ _) fun _ => .pure rfl
  | nextPointer =>
    exact Alike.bind_eq (Alike.lift _) fun query => hS.bind_contract fun c => Alike.lift _
  | _ => exact hS.toAlike.answer hcall _ data nofun nofun nofun

lemma withdraw (hS : Sharing S) (deployments : List Deployment) (f g : Frame) (h : S f g) :
    S { f with ledger := withdraw f.ledger deployments }
      { g with ledger := Run.withdraw g.ledger deployments } := by
  induction deployments generalizing f g with
  | nil => exact h
  | cons d rest ih =>
    exact ih _ _ (hS.other f g d.1 (forget d.2) h ⟨fun _ _ => rfl, fun _ => rfl, fun _ => rfl⟩)

lemma discardDeployments (hS : Sharing S) :
    Simulates S Eq discardDeployments discardDeployments := by
  refine .step outcome_discardDeployments outcome_discardDeployments (fun _ _ _ => rfl) ?_
  intro f g h
  rw [hS.deployments f g h]
  exact hS.withDeployments _ _ [] (hS.withdraw f.deployments.reverse f g h)

lemma putBack (hS : Sharing S) (before : Contract) :
    Simulates S Eq
      (Run.modifyContract fun c => { c with states := before.states, children := before.children })
      (Shared.putBack before) := by
  -- On copies storage and records are put back at once, here one after the other.
  have hparts (f : Frame) : f.modifyContract (fun c =>
      { c with states := before.states, children := before.children }) =
        (f.modifyContract fun c => { c with children := before.children }).modifyContract
          (restoring fun _ => before.states) :=
    (f.modifyContract_modifyContract (fun c => { c with children := before.children })
      (restoring fun _ => before.states)).symm
  intro f g hfg q f' hx
  rw [outcome_modifyContract, hparts] at hx
  have htend := hS.tend f g (fun c => { c with children := before.children }) hfg
    ⟨fun _ _ => rfl, fun _ => rfl, fun _ => rfl⟩
  rw [Shared.putBack, outcome_bind, outcome_modifyContract, Outcome.some_andThen]
  exact hS.change_shared (fun _ => before.states) _ _ htend q f' hx

lemma execute (hS : Sharing S)
    (hcall : ∀ target calldata, Simulates S Eq (call target calldata) (call' target calldata))
    (calldata : Bytes) (sender origin : Option Address) {f g : Frame} (hfg : S f g)
    (hf : f.contract.deployed = true) {q : Except Failure CallResponse} {f' : Frame}
    (hx : (execute call calldata sender origin).outcome f = some (q, f')) :
    ∃ g', (Shared.execute call' calldata sender origin).outcome g = some (q, g') ∧ S f' g' := by
  obtain ⟨s, hs⟩ := hS.contract f g hfg
  have hg : g.contract.deployed = true := by rw [hs]; exact hf
  simp only [Run.execute] at hx
  rw [Shared.execute]
  rw [outcome_bind, outcome_attempt, outcome_deploy_of_deployed call hf] at hx
  rw [outcome_bind, outcome_attempt, outcome_deploy_of_deployed call' hg]
  simp only [Outcome.some_andThen] at hx ⊢
  refine Simulates.outcome (hS.bind_contract fun before => ?_) hfg hx
  refine Alike.bind_eq (.step (outcome_modify _) (outcome_modify _) (fun _ _ _ => rfl)
    fun f g h => hS.withDeployments f g [] h) fun _ => ?_
  refine (hS.runMethod (hS.answer hcall) _ _).attempt.bind fun q r hqr => ?_
  cases hqr.eq
  cases q with
  | ok reply => exact hS.toAlike.bind_contract fun c _ => .pure rfl
  | error e =>
    refine Alike.bind_eq (hS.putBack before) fun _ => ?_
    refine Alike.bind_eq hS.discardDeployments fun _ => hS.toAlike.bind_contract fun c _ => ?_
    exact Alike.bind_eq (hS.note _ _) fun _ => Alike.bind_eq hS.dispose fun _ => .pure rfl

end Sharing

end ChainReplay
