import ChainReplay.Ledger.Journal
import ChainReplay.Storage

/-! Contracts: identity, code, storage, and what their last call left behind. -/

namespace ChainReplay

structure Event where
  kind : Text
  data : Bytes
  deriving DecidableEq

structure Handle where
  number : Nat
  gas : Int
  program : Instance

structure Contract where
  address : Address
  deployer : Address
  gasLimit : GasLimit
  gasUsed : Int
  states : Storage
  deploymentStates : Storage
  children : Table Address Bytes
  deployed : Bool
  events : List Event
  callStack : List Address
  backup : Storage
  ownCode : Option Bytes
  code : Option Bytes
  constructorCalldata : Bytes
  handle : Option Handle

structure Snapshot where
  address : Address
  states : Storage
  deploymentStates : Storage
  children : Table Address Bytes
  deployed : Bool
  blockNumber : Int

namespace Contract

def create (address deployer : Address) (gasLimit : GasLimit) (ownCode : Option Bytes)
    (constructorCalldata : Bytes) : Contract where
  address := address
  deployer := deployer
  gasLimit := gasLimit
  gasUsed := 0
  states := []
  deploymentStates := []
  children := []
  deployed := false
  events := []
  callStack := []
  backup := []
  ownCode := ownCode
  code := none
  constructorCalldata := constructorCalldata
  handle := none

def isLoaded (c : Contract) : Bool := c.handle.isSome

def dispose (c : Contract) : Contract :=
  match c.handle with
  | none => c
  | some h => { c with gasUsed := h.gas, handle := none }

def disposal (c : Contract) : List Entry := (c.handle.map fun h => Entry.disposed h.number).toList

def delete (c : Contract) : Contract :=
  { c.dispose with
    code := none, states := c.deploymentStates, backup := [], events := [], callStack := [],
    children := [] }

def setStates (c : Contract) (states : Storage) : Contract := { c with states }

def resetStates (c : Contract) : Contract := { c with states := c.deploymentStates }

def backupStates (c : Contract) : Contract := { c with backup := c.states }

def restoreStates (c : Contract) : Contract := { c with states := c.backup }

def snapshot (c : Contract) (blockNumber : Int) : Snapshot :=
  ⟨c.address, c.states, c.deploymentStates, c.children, c.deployed, blockNumber⟩

def applySnapshot (c : Contract) (s : Snapshot) : Contract :=
  { c with
    states := s.states, deploymentStates := s.deploymentStates, children := s.children,
    deployed := s.deployed }

def code? (c : Contract) : Except Failure Bytes :=
  match c.code with
  | some code => .ok code
  | none => .error (.missingCode (.unresolved c.address))

def fault (c : Contract) (kind : FaultKind) (detail : Text) : Failure :=
  .fault ⟨kind, detail, c.address⟩

def handle? (c : Contract) : Except Failure Handle :=
  match c.handle with
  | some h => .ok h
  | none => .error (c.fault .notInitialized "Contract not initialized")

def shown (c : Contract) : Text :=
  "ContractRuntime(" ++ c.address.text ++ ", pointers=" ++ .ofNat c.states.length ++ ")"

/-- Adds gas to the contract's handle if it is the one with this number. -/
def meter (c : Contract) (number : Nat) (gas : Int) : Contract :=
  { c with handle := c.handle.map fun h => if h.number = number then { h with gas } else h }

end Contract

/-- The outcome of a call: a reply or a fault, with the events and the contracts of its call tree.
-/
structure CallResponse where
  result : Except Failure Bytes
  events : List Event
  callStack : List Address
  usedGas : Int

end ChainReplay
