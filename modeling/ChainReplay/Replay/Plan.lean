import ChainReplay.Address.Parse
import ChainReplay.Engine.Program
import ChainReplay.Json.File
import ChainReplay.Json.Loose

/-! Plans of a replay: the contracts to set up, with their code, storage feeds and limits. -/

namespace ChainReplay

structure ContractPlan where
  address : Address
  name : Json
  deployer : Option Address
  code : Option Path
  states : Option Path
  gasLimit : Option GasLimit

structure Plan where
  admin : Address
  base : Path
  contracts : List ContractPlan

namespace ContractPlan

def label (c : ContractPlan) : Json := if c.name.isGiven then c.name else .text c.address.text

def addressOf (field : Text) (j : Json) : Except Failure Address :=
  match j with
  | .text t =>
    match Address.ofText t with
    | .ok a => .ok a
    | .error _ => .error (.setup (.badAddress field t))
  | _ => .error (.setup (.addressNotText field))

def gasLimitOf : Json → Except Failure (Option GasLimit)
  | .null => .ok none
  | .int n => if 0 < n then .ok (some (.amount n)) else .error (.setup (.badGasLimit (.int n)))
  | .bool true => .ok (some .truth)
  | j => .error (.setup (.badGasLimit j))

def pathOf (base : Path) (j : Json) : Except Failure (Option Path) :=
  if !j.isGiven then .ok none
  else match j with
    | .text t => .ok (some (base / Path.ofText t))
    | _ => .error .wrongType

def ofJson (base : Path) (entry : Json) : Except Failure ContractPlan :=
  match entry.member? "address" with
  | none => .error (.setup .entryWithoutAddress)
  | some address => do
    let field (name : Text) : Json := (entry.member? name).getD .null
    let gasLimit ← gasLimitOf (field "gas_limit")
    let address ← addressOf "address" address
    let deployer ← match field "deployer" with
      | .null => pure none
      | j => some <$> addressOf "deployer" j
    let code ← pathOf base (field "bytecode")
    let states ← pathOf base (field "states")
    return ⟨address, field "name", deployer, code, states, gasLimit⟩

end ContractPlan

namespace Plan

def ofJson (path : Path) (j : Json) : Except Failure Plan :=
  match j.member? "admin" with
  | none => .error (.setup (.planWithoutAdmin path))
  | some admin => do
    let entries ← ((j.member? "contracts").getD (.array [])).elements
    let contracts ← entries.mapM (ContractPlan.ofJson path.parent)
    if contracts.isEmpty then throw (.setup (.planWithoutContracts path))
    return ⟨← ContractPlan.addressOf "admin" admin, path.parent, contracts⟩

def load (d : Disk) (path : Path) : Except Failure Plan := do
  ofJson path (← d.document path (.setup (.unreadablePlan path)))

def codePath (p : Plan) (hrp : Text) (c : ContractPlan) : Except Failure Path :=
  match c.code with
  | some path => .ok path
  | none => do return p.base / ⟨.relative, ["bytecode", (← c.address.taproot hrp) ++ ".wasm"]⟩

end Plan

end ChainReplay
