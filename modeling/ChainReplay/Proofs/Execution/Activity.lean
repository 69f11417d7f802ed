import ChainReplay.Proofs.Execution.Trail

/-! The activations of a run, those of constructors included, nested as they are in time. -/

namespace ChainReplay

inductive Phase where
  | construction
  | execution
  deriving DecidableEq

inductive Activity where
  | quiet
  | activation (a : Address) (phase : Phase) (inner : Activity)
  | andThen (first second : Activity)

namespace Activity

/-- The contracts that are activated. -/
def contracts : Activity → List Address
  | quiet => []
  | activation a _ inner => a :: inner.contracts
  | andThen t u => t.contracts ++ u.contracts

/-- The contracts that are activated, but not by a constructor or anything that it calls. -/
def reached : Activity → List Address
  | quiet => []
  | activation a .construction _ => [a]
  | activation a .execution inner => a :: inner.reached
  | andThen t u => t.reached ++ u.reached

/-- Those of them that are called. -/
def called : Activity → List Address
  | quiet => []
  | activation _ .construction _ => []
  | activation a .execution inner => a :: inner.called
  | andThen t u => t.called ++ u.called

/-- No activation is of a contract that is among those of the activations nested in it. -/
def Avoids (among : Activity → List Address) : Activity → Prop
  | quiet => True
  | activation a _ inner => a ∉ among inner ∧ inner.Avoids among
  | andThen t u => t.Avoids among ∧ u.Avoids among

instance Avoids.decidable (among : Activity → List Address) :
    (t : Activity) → Decidable (t.Avoids among)
  | quiet => .isTrue trivial
  | activation _ _ inner => @instDecidableAnd _ _ _ (Avoids.decidable among inner)
  | andThen t u =>
    @instDecidableAnd _ _ (Avoids.decidable among t) (Avoids.decidable among u)

/-- No constructor is run. -/
def Plain : Activity → Prop
  | quiet => True
  | activation _ phase inner => phase = .execution ∧ inner.Plain
  | andThen t u => t.Plain ∧ u.Plain

lemma contracts_eq_called {t : Activity} (h : t.Plain) : t.contracts = t.called := by
  induction t with
  | quiet => rfl
  | activation a phase inner ih =>
    obtain ⟨rfl, hinner⟩ := h
    rw [contracts, called, ih hinner]
  | andThen t u iht ihu => rw [contracts, called, iht h.1, ihu h.2]

lemma contracts_of_called {t : Activity} {a : Address} (h : a ∈ t.called) : a ∈ t.contracts := by
  induction t with
  | quiet => exact h
  | activation b phase inner ih =>
    cases phase with
    | construction => exact absurd h List.not_mem_nil
    | execution => exact List.mem_cons.mpr ((List.mem_cons.mp h).imp_right ih)
  | andThen t u iht ihu => exact List.mem_append.mpr ((List.mem_append.mp h).imp iht ihu)

lemma contracts_eq_reached {t : Activity} (h : t.Plain) : t.contracts = t.reached := by
  induction t with
  | quiet => rfl
  | activation a phase inner ih =>
    obtain ⟨rfl, hinner⟩ := h
    rw [contracts, reached, ih hinner]
  | andThen t u iht ihu => rw [contracts, reached, iht h.1, ihu h.2]

lemma Avoids.contracts {t : Activity} (h : t.Avoids reached) (hplain : t.Plain) :
    t.Avoids Activity.contracts := by
  induction t with
  | quiet => trivial
  | activation a phase inner ih =>
    rw [Avoids, contracts_eq_reached hplain.2]
    exact ⟨h.1, ih h.2 hplain.2⟩
  | andThen t u iht ihu => exact ⟨iht h.1 hplain.1, ihu h.2 hplain.2⟩

end Activity

namespace Contract

/-- The contract's constructor is yet to be run. -/
def isNew (c : Contract) : Bool := !c.deployed && c.states.isEmpty && c.deploymentStates.isEmpty

lemma isNew_of_deployed {c : Contract} (h : c.deployed = true) : c.isNew = false := by
  rw [isNew, h]
  rfl

end Contract

namespace Run

/-- What an activation does before the constructor's program runs on the handle with this number. -/
def inception : Run (Nat × Program) := do
  let handle ← load
  let c ← contract
  let record ← setEnvironment (.caller (some c.deployer) (some c.deployer))
  enter (.construction handle.number c.constructorCalldata)
  return (handle.number, handle.program.construct record c.constructorCalldata)

section Activities

variable (call : Address → Bytes → Run CallResponse) (nested : Address → Bytes → Frame → Activity)

def requestActivity (request : HostFunction) (data : Bytes) (f : Frame) : Activity :=
  match request with
  | .call =>
    match callRequest data with
    | .ok (target, calldata) => nested target calldata f
    | .error _ => .quiet
  | _ => .quiet

def programActivity (number : Nat) : Program → (gas : Int) → Frame → Activity
  | .done _, _, _ => .quiet
  | .fail _, _, _ => .quiet
  | .ask request data next, gas, f =>
    match (Host.answer call request data).outcome f with
    | some (reply, g) =>
      .andThen (requestActivity nested request data f)
        (programActivity number (next reply) gas (answered number request reply g))
    | none => .quiet
  | .charge amount next, gas, f =>
    programActivity number next (gas + amount) (charged number (gas + amount) f)
  | .caught e next, gas, f =>
    programActivity number next gas { f with ledger := f.ledger.enter [.caught number e] }

def activityOf (start : Run (Nat × Program)) (f : Frame) : Activity :=
  match start.outcome f with
  | some (.ok (number, program), g) => programActivity call nested number program 0 g
  | _ => .quiet

def deployActivity (f : Frame) : Activity :=
  if f.contract.isNew then
    .activation f.contract.address .construction (activityOf call nested inception f)
  else .quiet

def executeActivity (calldata : Bytes) (sender origin : Option Address) (f : Frame) : Activity :=
  .andThen (deployActivity call nested f)
    (match (deploy call).outcome f with
    | some (.ok _, g) =>
      .activation g.contract.address .execution
        (activityOf call nested (entry calldata (.caller sender origin))
          { g with deployments := [] })
    | _ => .quiet)

def openActivity (target : Address) (f : Frame) : Activity :=
  if f.ledger.nestedCalls && f.ledger.hasContract target then
    deployActivity call nested ⟨opened f target, .registered target, []⟩
  else .quiet

def visitActivity (target : Address) (calldata : Bytes) (f : Frame) : Activity :=
  .andThen (openActivity call nested target f)
    (match (copied call target).outcome f with
    | some (.ok copy, g) =>
      executeActivity call nested calldata (some g.contract.address) (some g.ledger.origin)
        (heard calldata ⟨g.ledger, .apart copy, []⟩)
    | _ => .quiet)

end Activities

def callActivity : Nat → Address → Bytes → Frame → Activity
  | 0, _, _, _ => .quiet
  | n + 1, target, calldata, f => visitActivity (Run.call n) (callActivity n) target calldata f

end Run

/-- The activations of a call from outside. -/
def Ledger.activity (l : Ledger) (n : Nat) (seat : Seat) (calldata : Bytes)
    (sender origin : Option Address) : Activity :=
  Run.executeActivity (Run.call n) (Run.callActivity n) calldata sender origin ⟨l, seat, []⟩

end ChainReplay
