import ChainReplay.Execution.Activation
import ChainReplay.Ledger.Registry

/-! Calls between contracts. A nested call runs on a copy of the registered contract, whose storage
and deployment records are carried over afterwards. Fuel bounds the depth of nesting. -/

namespace ChainReplay

namespace Run

def copyOf (l : Ledger) (target : Contract) : Except Failure (Ledger × Contract) := do
  let code ← target.code?
  let copy := Contract.create target.address target.deployer target.gasLimit (some code) []
  let copy := { copy with
    states := target.states, deploymentStates := target.deploymentStates
    children := target.children, deployed := true }
  match l.resolveCode copy with
  | (l, .ok copy) => return (l, copy)
  | (_, .error f) => throw f

/-- Carries storage and new deployment records of the copy over to the registered contract. -/
def carryOver (l : Ledger) (target : Address) (copy : Contract) : Ledger × List Deployment :=
  match l.contracts.find? target with
  | none => (l, [])
  | some c =>
    let fresh := copy.children.filter fun (a, _) => !c.children.contains a
    (l.modifyContract target fun c =>
      { c with states := copy.states, children := c.children ++ fresh },
      fresh.map fun (a, _) => (target, a))

def adopt (response : CallResponse) (c : Contract) : Contract :=
  { c with
    events := c.events ++ response.events
    callStack := response.callStack.foldl (fun stack a =>
      if stack.contains a then stack else stack ++ [a]) c.callStack }

def checkResponse (l : Ledger) (caller : Contract) (response : CallResponse) :
    Except Failure CallResponse :=
  if l.maxCallDepth < caller.callStack.length then
    .error (caller.fault .callDepthExceeded "CALL_STACK DEPTH EXCEEDED")
  else if l.reentrancyGuard && response.callStack.contains caller.address then
    .error (caller.fault .reentrancy "REENTRANCY DETECTED")
  else match response.result with
    | .ok _ => .ok response
    | .error f =>
      let detail := (f.fault?.map (·.detail)).getD []
      .error (.caused ⟨.callFailed, detail, caller.address⟩ f)

def openCall (call : Address → Bytes → Run CallResponse) (target : Address) : Run Unit := do
  let caller ← contract
  let l ← ledger
  if !l.nestedCalls then throw (caller.fault .unsupportedReentry "Not implemented")
  if l.traceCalls then note .info (caller.address.text ++ " calls " ++ target.text)
  if !l.hasContract target then
    throw (caller.fault .callFailed (Failure.unknownContract target).message)
  let (deployed, _, _) ← inSeat (.registered target) (deploy call)
  lift deployed

def copyTarget (target : Address) : Run Contract := do
  let l ← ledger
  let (l, copy) ← lift (copyOf l (Seat.contract l (.registered target)))
  modifyLedger fun _ => l
  return copy

/-- Takes over what a nested call has left on its copy of the target, and judges its response. -/
def closeCall (target : Address) (copy : Contract) (deployments : List Deployment)
    (response : CallResponse) : Run CallResponse := do
  let (l, carried) := carryOver (← ledger) target copy
  modify fun f =>
    { f with ledger := l, deployments := f.deployments ++ carried ++ deployments }
  modifyContract (adopt response)
  lift (checkResponse l (← contract) response)

/-- Calls another contract; `call` is the way in which that contract may call on. -/
def callWith (call : Address → Bytes → Run CallResponse) (target : Address) (calldata : Bytes) :
    Run CallResponse := do
  openCall call target
  let copy ← copyTarget target
  let caller ← contract
  let origin := (← ledger).origin
  let (outcome, seat, deployments) ← inSeat (.apart copy)
    (receive calldata (execute call calldata (some caller.address) (some origin)))
  closeCall target (seat.contract (← ledger)) deployments (← lift outcome)

def call : Nat → Address → Bytes → Run CallResponse
  | 0, _, _ => outOfFuel
  | n + 1, target, calldata => callWith (call n) target calldata

def depth : Nat := 1000

def nested (target : Address) (calldata : Bytes) : Run CallResponse := call depth target calldata

end Run

/-- Runs in a seat of the ledger: the outcome, the ledger and what became of the seat. -/
def Ledger.perform {α : Type} (l : Ledger) (seat : Seat) (act : Run α) :
    Option (Except Failure α × Ledger × Seat) :=
  (ExceptT.run act ⟨l, seat, []⟩).map fun (result, f) => (result, f.ledger, f.seat)

end ChainReplay
