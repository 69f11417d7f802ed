import ChainReplay.Settings

/-! The execution engine as seen from a ledger. A running contract is a program: a tree of requests
to its host, each continued by the reply or by the failure of the request. -/

namespace ChainReplay

inductive HostFunction where
  | load
  | store
  | nextPointer
  | call
  | deploy
  | inputs
  | outputs
  | log
  | emit
  deriving DecidableEq

namespace HostFunction

def name : HostFunction → Text
  | load => "load"
  | store => "store"
  | nextPointer => "next_pointer_value_greater_than"
  | call => "call"
  | deploy => "deploy_contract_at_address"
  | inputs => "inputs"
  | outputs => "outputs"
  | log => "log"
  | emit => "emit"

def all : List HostFunction :=
  [load, store, nextPointer, call, deploy, inputs, outputs, log, emit]

def ofName? (t : Text) : Option HostFunction := all.find? (·.name = t)

def takesOperand : HostFunction → Bool
  | inputs | outputs => false
  | _ => true

def isAnswered : HostFunction → Bool
  | log | emit => false
  | _ => true

end HostFunction

inductive Program where
  | done (reply : Bytes)
  | fail (failure : Failure)
  | ask (request : HostFunction) (data : Bytes) (next : Except Failure Bytes → Program)
  | charge (gas : Int) (next : Program)
  | caught (failure : Failure) (next : Program)

inductive GasLimit where
  | amount (n : Int)
  | truth
  deriving DecidableEq

def GasLimit.toJson : GasLimit → Json
  | amount n => .int n
  | truth => .bool true

structure Parameters where
  address : Address
  bytecode : Bytes
  gasLimit : GasLimit
  network : Network

/-- A contract inside the engine: whether it accepts an environment record, and the programs that
its constructor and its methods run for a record and calldata. -/
structure Instance where
  refusal : Option Failure
  construct : (environment calldata : Bytes) → Program
  execute : (environment calldata : Bytes) → Program

structure Engine where
  instantiate : Parameters → Except Failure Instance

end ChainReplay
