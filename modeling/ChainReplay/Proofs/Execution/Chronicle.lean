import ChainReplay.Proofs.Execution.Activity

/-! What the activations of a run do, nested as they are in time: the events that they emit, the copies
that they record, which of them fail, and which contracts come to be deployed. -/

namespace ChainReplay

inductive Chronicle where
  | quiet
  | emitted (event : Event)
  | recorded (child : Address) (code : Bytes)
  | awakened (a : Address)
  | activation (a : Address) (phase : Phase) (failed : Bool) (inner : Chronicle)
  | andThen (first second : Chronicle)

namespace Chronicle

/-- The contracts that are activated, in this order. -/
def contracts : Chronicle → List Address
  | quiet => []
  | emitted _ => []
  | recorded _ _ => []
  | awakened _ => []
  | activation a _ _ inner => a :: inner.contracts
  | andThen t u => t.contracts ++ u.contracts

def events : Chronicle → List Event
  | quiet => []
  | emitted event => [event]
  | recorded _ _ => []
  | awakened _ => []
  | activation _ _ _ inner => inner.events
  | andThen t u => t.events ++ u.events

end Chronicle

namespace Run

def eventRequest (data : Bytes) : Except Failure (Text × Bytes) := Host.eventFormat.decode data

lemma answer_emit (call : Address → Bytes → Run CallResponse) (data : Bytes) :
    Host.answer call .emit data = (do
      let event ← lift (eventRequest data)
      Host.emitEvent event.1 event.2
      return []) := rfl

/-- The run fails from this frame, or is cut off. -/
def failed {α : Type} (x : Run α) (f : Frame) : Bool :=
  match x.outcome f with
  | some (.ok _, _) => false
  | _ => true

section Chronicles

variable (call : Address → Bytes → Run CallResponse)
  (nested : Address → Bytes → Frame → Chronicle)

def requestChronicle (request : HostFunction) (data : Bytes) (f : Frame) : Chronicle :=
  match request with
  | .call =>
    match callRequest data with
    | .ok (target, calldata) => nested target calldata f
    | .error _ => .quiet
  | .deploy =>
    match deployRequest data with
    | .ok (source, salt) =>
      match (Host.deployCopy source salt).outcome f, f.ledger.code? source with
      | some (.ok (_, derived), _), .ok code => .recorded derived code
      | _, _ => .quiet
    | .error _ => .quiet
  | .emit =>
    match eventRequest data with
    | .ok (kind, data) => .emitted ⟨kind, data⟩
    | .error _ => .quiet
  | _ => .quiet

def programChronicle (number : Nat) : Program → (gas : Int) → Frame → Chronicle
  | .done _, _, _ => .quiet
  | .fail _, _, _ => .quiet
  | .ask request data next, gas, f =>
    match (Host.answer call request data).outcome f with
    | some (reply, g) =>
      .andThen (requestChronicle nested request data f)
        (programChronicle number (next reply) gas (answered number request reply g))
    | none => .quiet
  | .charge amount next, gas, f =>
    programChronicle number next (gas + amount) (charged number (gas + amount) f)
  | .caught e next, gas, f =>
    programChronicle number next gas { f with ledger := f.ledger.enter [.caught number e] }

def chronicleOf (start : Run (Nat × Program)) (f : Frame) : Chronicle :=
  match start.outcome f with
  | some (.ok (number, program), g) => programChronicle call nested number program 0 g
  | _ => .quiet

def deployChronicle (f : Frame) : Chronicle :=
  if f.contract.isNew then
    .activation f.contract.address .construction (failed (deploy call) f)
      (chronicleOf call nested inception f)
  else if f.contract.deployed then .quiet
  else .awakened f.contract.address

def methodChronicle (calldata : Bytes) (given : EnvironmentGiven) (f : Frame) : Chronicle :=
  .activation f.contract.address .execution
    (failed (runMethod (Host.answer call) calldata given) f)
    (chronicleOf call nested (entry calldata given) f)

def executeChronicle (calldata : Bytes) (sender origin : Option Address) (f : Frame) : Chronicle :=
  .andThen (deployChronicle call nested f)
    (match (deploy call).outcome f with
    | some (.ok _, g) =>
      methodChronicle call nested calldata (.caller sender origin) { g with deployments := [] }
    | _ => .quiet)

def openChronicle (target : Address) (f : Frame) : Chronicle :=
  if f.ledger.nestedCalls && f.ledger.hasContract target then
    deployChronicle call nested ⟨opened f target, .registered target, []⟩
  else .quiet

def visitChronicle (target : Address) (calldata : Bytes) (f : Frame) : Chronicle :=
  .andThen (openChronicle call nested target f)
    (match (copied call target).outcome f with
    | some (.ok copy, g) =>
      executeChronicle call nested calldata (some g.contract.address) (some g.ledger.origin)
        (heard calldata ⟨g.ledger, .apart copy, []⟩)
    | _ => .quiet)

end Chronicles

lemma executeChronicle_of_deployed {call : Address → Bytes → Run CallResponse}
    {nested : Address → Bytes → Frame → Chronicle} {f : Frame} (h : f.contract.deployed = true)
    (calldata : Bytes) (sender origin : Option Address) :
    executeChronicle call nested calldata sender origin f =
      .andThen .quiet (methodChronicle call nested calldata (.caller sender origin)
        { f with deployments := [] }) := by
  rw [executeChronicle, outcome_deploy_of_deployed call h, deployChronicle,
    Contract.isNew_of_deployed h, if_neg Bool.false_ne_true, if_pos h]

def callChronicle : Nat → Address → Bytes → Frame → Chronicle
  | 0, _, _, _ => .quiet
  | n + 1, target, calldata, f => visitChronicle (Run.call n) (callChronicle n) target calldata f

end Run

namespace Ledger

/-- The chronicle of a call from outside to a registered contract. -/
def chronicle (l : Ledger) (n : Nat) (a : Address) (calldata : Bytes)
    (sender origin : Option Address) : Chronicle :=
  Run.executeChronicle (Run.call n) (Run.callChronicle n) calldata sender origin
    ⟨l, .registered a, []⟩

/-- The chronicle of a deployment of a registered contract from outside. -/
def construction (l : Ledger) (n : Nat) (a : Address) : Chronicle :=
  Run.deployChronicle (Run.call n) (Run.callChronicle n) ⟨l, .registered a, []⟩

end Ledger

end ChainReplay
