import ChainReplay.Ledger.Contract

/-! The ledger: chain position, caller, code and contracts of one simulation. -/

namespace ChainReplay

def emptyList : Bytes := Bytes.ofNat 2 0

structure Ledger where
  settings : Settings
  engine : Option Engine
  codes : Table Address Bytes
  contracts : Table Address Contract
  retired : List Contract
  blockNumber : Int
  medianTime : Int
  transactionId : Bytes
  inputs : Bytes
  outputs : Bytes
  sender : Address
  origin : Address
  traceGas : Bool
  tracePointers : Bool
  traceCalls : Bool
  traceDeployments : Bool
  reentrancyGuard : Bool
  nestedCalls : Bool
  maxCallDepth : Int
  handles : Nat
  journal : List Entry
  notices : List Notice

namespace Ledger

def create (settings : Settings) (engine : Option Engine) : Ledger where
  settings := settings
  engine := engine
  codes := []
  contracts := []
  retired := []
  blockNumber := 1
  medianTime := 0
  transactionId := Bytes.zeros 32
  inputs := emptyList
  outputs := emptyList
  sender := Address.zero
  origin := Address.zero
  traceGas := settings.traceGas
  tracePointers := settings.tracePointers
  traceCalls := settings.traceCalls
  traceDeployments := settings.traceDeployments
  reentrancyGuard := settings.reentrancyGuard
  nestedCalls := settings.nestedCalls
  maxCallDepth := settings.maxCallDepth
  handles := 0
  journal := []
  notices := []

def note (l : Ledger) (level : Level) (text : Text) : Ledger :=
  { l with notices := l.notices ++ [⟨level, text⟩] }

def enter (l : Ledger) (entries : List Entry) : Ledger :=
  { l with journal := l.journal ++ entries }

def engine? (l : Ledger) : Except Failure Engine :=
  match l.engine with
  | some e => .ok e
  | none => .error (.setup .noEngine)

def mine (l : Ledger) : Ledger := { l with blockNumber := l.blockNumber + 1 }

def setTransaction (l : Ledger) (id inputs outputs : Bytes) : Except Failure Ledger :=
  if id.length = 32 then .ok { l with transactionId := id, inputs, outputs }
  else .error .wrongValue

def clearTransaction (l : Ledger) : Ledger :=
  { l with transactionId := Bytes.zeros 32, inputs := emptyList, outputs := emptyList }

def shown (l : Ledger) : Text :=
  "Ledger(block=" ++ Text.ofInt l.blockNumber ++ ", contracts=" ++ .ofNat l.contracts.length ++ ")"

end Ledger

end ChainReplay
