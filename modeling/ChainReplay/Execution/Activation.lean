import ChainReplay.Execution.Host

/-! Activations: a fresh handle is loaded, told about the environment, and its constructor or one of
its methods is run. -/

namespace ChainReplay

open Format

def environmentFormat : Format :=
  pair address (pair address (pair (raw 32) (pair u256 (pair address (pair address
    (pair u64 u64))))))

structure EnvironmentGiven where
  sender : Option Address
  origin : Option Address
  block : Option Int
  owner : Option Address
  address : Option Address

def EnvironmentGiven.caller (sender origin : Option Address) : EnvironmentGiven :=
  ⟨sender, origin, none, none, none⟩

def environmentRecord (l : Ledger) (c : Contract) (given : EnvironmentGiven) :
    Except Failure Bytes :=
  environmentFormat.encode
    (given.sender.getD l.sender, given.origin.getD l.origin, l.transactionId,
      given.block.getD l.blockNumber, given.owner.getD c.deployer, given.address.getD c.address,
      l.medianTime, l.blockNumber / 2)

namespace Run

def load : Run Handle := do
  dispose
  modifyContract fun c => { c with events := [], callStack := [c.address] }
  let c ← contract
  let l ← ledger
  let code ← lift c.code?
  let engine ← lift l.engine?
  let parameters : Parameters := ⟨c.address, code, c.gasLimit, l.settings.network⟩
  let number := l.handles + 1
  modifyLedger fun l => { l with handles := number }
  enter (.instantiated number parameters)
  let program ← lift (engine.instantiate parameters)
  let handle : Handle := ⟨number, 0, program⟩
  modifyContract fun c => { c with handle := some handle }
  return handle

def setEnvironment (given : EnvironmentGiven) : Run Bytes := do
  let c ← contract
  let record ← lift (environmentRecord (← ledger) c given)
  let handle ← lift c.handle?
  enter (.environment handle.number record)
  match handle.program.refusal with
  | some f => throw f
  | none => return record

/-- Runs a program on the handle with this number, which has used `gas` so far; `host` answers its
requests. -/
def interpret (host : HostFunction → Bytes → Run Bytes) (number : Nat) :
    Program → (gas : Int) → Run Bytes
  | .done reply, _ => return reply
  | .fail f, _ => throw f
  | .ask request data next, gas => do
    let reply ← attempt (host request data)
    match reply with
    | .ok bs => if request.isAnswered then enter (.reply number request bs)
    | .error _ => pure ()
    interpret host number (next reply) gas
  | .charge amount next, gas => do
    let gas := gas + amount
    modifyContract (·.meter number gas)
    Host.observeGas gas "step"
    interpret host number next gas
  | .caught f next, gas => do
    enter (.caught number f)
    interpret host number next gas

def construct (call : Address → Bytes → Run CallResponse) : Run Unit := do
  let handle ← load
  let c ← contract
  let record ← setEnvironment (.caller (some c.deployer) (some c.deployer))
  enter (.construction handle.number c.constructorCalldata)
  let _ ← interpret (Host.answer call) handle.number
    (handle.program.construct record c.constructorCalldata) 0

/-- Makes sure that the contract is deployed. A contract that has storage counts as deployed; else
its constructor runs, and if this fails the contract has no storage. -/
def deploy (call : Address → Bytes → Run CallResponse) : Run Unit := do
  let c ← contract
  if c.deployed then return
  if !c.states.isEmpty || !c.deploymentStates.isEmpty then
    modifyContract fun c => { c with deployed := true }
    return
  match ← attempt (construct call) with
  | .error f =>
    modifyContract fun c => { c with states := [] }
    dispose
    throw (f.wrap c.address)
  | .ok _ =>
    modifyContract fun c => { c with deploymentStates := c.states, deployed := true }
    if (← ledger).traceDeployments then
      let written := (← contract).states.length
      note .info ("deployed " ++ c.address.text ++ " (" ++ .ofNat written ++ " pointers written)")
    dispose

def discardDeployments : Run Unit :=
  modify fun f =>
    let contracts := f.deployments.reverse.foldl (fun contracts (owner, child) =>
      Table.modify contracts owner fun c => { c with children := c.children.erase child })
      f.ledger.contracts
    { f with ledger := { f.ledger with contracts }, deployments := [] }

def runMethod (host : HostFunction → Bytes → Run Bytes) (calldata : Bytes)
    (given : EnvironmentGiven) : Run Bytes := do
  let handle ← load
  let record ← setEnvironment given
  enter (.execution handle.number calldata)
  interpret host handle.number (handle.program.execute record calldata) 0

/-- Calls the contract. If the call fails, storage and deployment records are put back and the
handle is given back before the fault is returned. -/
def execute (call : Address → Bytes → Run CallResponse) (calldata : Bytes)
    (sender origin : Option Address) : Run CallResponse := do
  match ← attempt (deploy call) with
  | .error f => return ⟨.error f, [], [(← contract).address], 0⟩
  | .ok _ => pure ()
  let before ← contract
  modify fun f => { f with deployments := [] }
  let outcome ← attempt (runMethod (Host.answer call) calldata (.caller sender origin))
  let outcome := outcome.mapError (·.wrap before.address)
  if outcome.toOption.isNone then
    modifyContract fun c => { c with states := before.states, children := before.children }
    discardDeployments
  let c ← contract
  let used := (c.handle.map (·.gas)).getD 0
  match outcome with
  | .ok _ => pure ()
  | .error f =>
    let detail := (f.fault?.map (·.detail)).getD []
    note .debug ("call into " ++ c.address.text ++ " failed: " ++ detail)
    dispose
  return ⟨outcome, c.events, c.callStack, used⟩

def receive (calldata : Bytes) (respond : Run CallResponse) : Run CallResponse := do
  let address := (← contract).address
  if (← ledger).traceCalls then
    let selector := if calldata.length < 4 then 0 else Bytes.toNat (calldata.take 4)
    note .info (address.text ++ " called externally, selector " ++ .padded 16 8 selector)
  let response ← respond
  if (← ledger).traceCalls then
    let shown := match response.result with
      | .ok bs => bs.quoted
      | .error _ => "None"
    note .info ("call response from " ++ address.text ++ ": " ++ shown)
  dispose
  return response

end Run

end ChainReplay
