import ChainReplay.Session.Basic

/-! Contracts of a session. Those that are not registered are kept by the session itself. -/

namespace ChainReplay

inductive ContractRef where
  | named (name : Text)
  | registered (address : Address)

namespace Session

def seat : ContractRef → Play Seat
  | .named name => do named (← get).contracts name
  | .registered a => do
    let _ ← lift ((← get).ledger.contract? a)
    return .registered a

def place (r : ContractRef) (seat : Seat) : Play Unit :=
  match r with
  | .named name => modify fun s => { s with contracts := Table.insert name seat s.contracts }
  | .registered _ => pure ()

def perform {α : Type} (r : ContractRef) (act : Run α) : Play α := do
  let before ← seat r
  let (result, l, after) ← finish ((← get).ledger.perform before act)
  modifyLedger fun _ => l
  place r after
  lift result

def contract (r : ContractRef) : Play Contract := perform r Run.contract

def modifyContract (r : ContractRef) (f : Contract → Contract) : Play Unit :=
  perform r (Run.modifyContract f)

def addContract (name : Text) (c : Contract) : Play Unit := place (.named name) (.apart c)

def initContract (r : ContractRef) : Play Unit := do
  let c ← contract r
  let resolved ← commitLedger fun l => l.resolveCode c
  modifyContract r fun _ => resolved

def registerContract (r : ContractRef) : Play Unit := do
  let c ← contract r
  updateLedger (·.register c)
  place r (.registered c.address)

def disposeContract (r : ContractRef) : Play Unit := perform r Run.dispose

def deleteContract (r : ContractRef) : Play Unit := do
  disposeContract r
  modifyContract r Contract.delete

def deployContract (r : ContractRef) : Play Unit := perform r (Run.deploy Run.nested)

def execute (r : ContractRef) (calldata : Bytes) (sender origin : Option Address) :
    Play CallResponse :=
  perform r (Run.execute Run.nested calldata sender origin)

def receive (r : ContractRef) (calldata : Bytes) (sender origin : Address) : Play CallResponse :=
  perform r (Run.receive calldata (Run.execute Run.nested calldata (some sender) (some origin)))

def callFrom (r : ContractRef) (target : Address) (calldata : Bytes) : Play CallResponse :=
  perform r (Run.nested target calldata)

def request (r : ContractRef) (fn : HostFunction) (data : Option Bytes) : Play Bytes := do
  let _ ← seat r
  match data with
  | some _ => if !fn.takesOperand then throw (.request (.withOperand fn.name))
  | none => if fn.takesOperand then throw (.request (.lacking fn.name "data"))
  perform r (Host.answer Run.nested fn (data.getD []))

def takeSnapshot (r : ContractRef) (name : Text) : Play Snapshot := do
  let taken := (← contract r).snapshot (← get).ledger.blockNumber
  modify fun s => { s with snapshots := Table.insert name taken s.snapshots }
  return taken

def applySnapshot (r : ContractRef) (name : Text) : Play Unit := do
  let taken ← named (← get).snapshots name
  modifyContract r (·.applySnapshot taken)

end Session

end ChainReplay
