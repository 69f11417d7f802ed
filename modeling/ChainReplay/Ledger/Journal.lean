import ChainReplay.Engine.Program

/-! What a ledger keeps of what happened: a journal of the traffic with the engine, and notices for
people. -/

namespace ChainReplay

/-- Entries name a handle by the number under which the engine gave it out. -/
inductive Entry where
  | instantiated (handle : Nat) (parameters : Parameters)
  | environment (handle : Nat) (record : Bytes)
  | construction (handle : Nat) (calldata : Bytes)
  | execution (handle : Nat) (calldata : Bytes)
  | reply (handle : Nat) (request : HostFunction) (data : Bytes)
  | caught (handle : Nat) (failure : Failure)
  | disposed (handle : Nat)

inductive Level where
  | debug
  | info
  | warning
  | error
  deriving DecidableEq

def Level.name : Level → Text
  | debug => "DEBUG"
  | info => "INFO"
  | warning => "WARNING"
  | error => "ERROR"

structure Notice where
  level : Level
  text : Text
  deriving DecidableEq

end ChainReplay
