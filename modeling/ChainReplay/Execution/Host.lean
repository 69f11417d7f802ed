import ChainReplay.Execution.Frame
import ChainReplay.Wire.Format

/-! The host's side of a request: decode it, act on the running contract, encode the reply. -/

namespace ChainReplay.Host

open Format Run

def loadPointer (pointer : Int) : Run Int := do
  let c ← contract
  let value := c.states.load pointer
  if (← ledger).tracePointers then
    note .debug (c.address.text ++ " load pointer " ++ .ofInt pointer ++ " -> " ++ .ofInt value)
  return value

def storePointer (pointer value : Int) : Run Unit := do
  let c ← contract
  if (← ledger).tracePointers then
    note .debug (c.address.text ++ " store pointer " ++ .ofInt pointer ++ " <- " ++ .ofInt value)
  modifyContract fun c => { c with states := c.states.store pointer value }

/-- Records that the contract has deployed a copy of another contract's code; the ledger gets to
know the copy only once the outer call has succeeded. -/
def deployCopy (source : Address) (salt : Bytes) : Run (Bytes × Address) := do
  let c ← contract
  let l ← ledger
  if l.traceDeployments then
    note .info (c.address.text ++ " deploys a copy of " ++ source.text ++ ", salt " ++ salt.hex)
  let (seed, derived) ← lift (l.generateAddress c.address salt source)
  if c.children.contains derived then
    throw (c.fault .alreadyDeployed "Contract already deployed")
  if source = c.address then
    throw (c.fault .selfDeployment "Cannot deploy the same contract")
  let code ← lift (l.code? source)
  modifyLedger (·.setCode derived code)
  modifyContract fun c => { c with children := Table.insert derived code c.children }
  if l.traceDeployments then
    note .info (c.address.text ++ " recorded deployment at " ++ derived.text ++ " (seed 0x"
      ++ seed.hex ++ ")")
  return (seed, derived)

def logMessage (message : Text) : Run Unit := do
  note .warning ("Contract log [" ++ (← contract).address.text ++ "]: " ++ message)

def emitEvent (kind : Text) (data : Bytes) : Run Unit :=
  modifyContract fun c => { c with events := c.events ++ [⟨kind, data⟩] }

def observeGas (gas : Int) (method : Text) : Run Unit := do
  if (← ledger).traceGas then
    note .debug ((← contract).address.text ++ " gas: " ++ .ofInt gas ++ " (" ++ method ++ ")")

def storeFormat : Format := pair u256 u256

def nextFormat : Format := pair u256 (pair u256 boolean)

def callFormat : Format := pair address blob

def deployFormat : Format := pair address (raw 32)

def eventFormat : Format := pair text blob

def answer (call : Address → Bytes → Run CallResponse) (request : HostFunction) (data : Bytes) :
    Run Bytes := do
  match request with
  | .load =>
    let pointer : Int ← lift (u256.decode data)
    lift (u256.encode (← loadPointer pointer))
  | .store =>
    let entry : Int × Int ← lift (storeFormat.decode data)
    storePointer entry.1 entry.2
    return [1]
  | .nextPointer =>
    let query : Int × Int × Bool ← lift (nextFormat.decode data)
    lift (u256.encode ((← contract).states.nextPointer query.1 query.2.1 query.2.2))
  | .call =>
    let target : Address × Bytes ← lift (callFormat.decode data)
    let response ← call target.1 target.2
    let gas ← lift (u64.encode response.usedGas)
    return gas ++ (response.result.toOption.getD [])
  | .deploy =>
    let source : Address × Bytes ← lift (deployFormat.decode data)
    let (seed, derived) ← deployCopy source.1 source.2
    return seed ++ derived.bytes
  | .inputs => return (← ledger).inputs
  | .outputs => return (← ledger).outputs
  | .log =>
    let message : Text ← lift (text.decode data)
    logMessage message
    return []
  | .emit =>
    let event : Text × Bytes ← lift (eventFormat.decode data)
    emitEvent event.1 event.2
    return []

end ChainReplay.Host
