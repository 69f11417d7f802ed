import ChainReplay.Disk
import ChainReplay.Ledger.Basic
import ChainReplay.Sha256

/-! The code that a ledger knows by address, and the addresses derived from it. -/

namespace ChainReplay.Ledger

def code? (l : Ledger) (a : Address) : Except Failure Bytes :=
  match l.codes.find? a with
  | some code => .ok code
  | none => .error (.missingCode (.unregistered a))

/-- The first code of an address stays. -/
def setCode (l : Ledger) (a : Address) (code : Bytes) : Ledger :=
  { l with codes := l.codes.insertNew a code }

def seedOf (deployer : Address) (salt code : Bytes) : Bytes :=
  Sha256.digest (Sha256.hash256 deployer.bytes ++ salt ++ Sha256.hash256 code)

def derivedAddress (deployer : Address) (salt code : Bytes) : Address :=
  ⟨seedOf deployer salt code, Sha256.length_digest _⟩

def generateAddress (l : Ledger) (deployer : Address) (salt : Bytes) (source : Address) :
    Except Failure (Bytes × Address) := do
  let code ← l.code? source
  return (seedOf deployer salt code, derivedAddress deployer salt code)

def resolveCode (l : Ledger) (c : Contract) : Ledger × Except Failure Contract :=
  let l := match c.ownCode with
    | some code => l.setCode c.address code
    | none => l
  match l.code? c.address with
  | .ok code => (l, .ok { c with code := some code })
  | .error f => (l, .error f)

def loadCode (l : Ledger) (d : Disk) (path : Path) (a : Address) :
    Except Failure (Ledger × Bytes) := do
  let code ← d.readOr path (.missingCode (.unreadable a path))
  let known := l.setCode a code
  let text := "loaded " ++ Text.ofNat code.length ++ " bytes of bytecode for " ++ a.text
    ++ " from " ++ path.text
  return (known.note .debug text, (known.codes.find? a).getD code)

end ChainReplay.Ledger
