import ChainReplay.Ledger.Code

/-! The contracts that a ledger knows by address. -/

namespace ChainReplay.Ledger

def contract? (l : Ledger) (a : Address) : Except Failure Contract :=
  match l.contracts.find? a with
  | some c => .ok c
  | none => .error (.unknownContract a)

def hasContract (l : Ledger) (a : Address) : Bool := l.contracts.contains a

def register (l : Ledger) (c : Contract) : Except Failure Ledger :=
  if l.hasContract c.address then .error (.duplicateContract c.address)
  else
    let l := { l with contracts := l.contracts ++ [(c.address, c)] }
    .ok (l.note .debug ("registered contract " ++ c.address.text))

def modifyContract (l : Ledger) (a : Address) (f : Contract → Contract) : Ledger :=
  { l with contracts := l.contracts.modify a f }

def modifyAll (l : Ledger) (f : Contract → Contract) : Ledger :=
  { l with contracts := l.contracts.map fun (a, c) => (a, f c) }

def clearContracts (l : Ledger) : Ledger :=
  { l with contracts := [], retired := l.retired ++ l.contracts.values }

def dispose (l : Ledger) : Ledger :=
  (l.enter (l.contracts.values.flatMap Contract.disposal)).modifyAll Contract.dispose

def resolveAll (l : Ledger) : List Address → Ledger × Except Failure Unit
  | [] => (l, .ok ())
  | a :: rest =>
    match l.contracts.find? a with
    | none => resolveAll l rest
    | some c =>
      match l.resolveCode c with
      | (l, .ok c) => resolveAll (l.modifyContract a fun _ => c) rest
      | (l, .error f) => (l, .error f)

def init (l : Ledger) : Ledger × Except Failure Unit := l.dispose.resolveAll l.contracts.keys

def cleanup (l : Ledger) : Ledger :=
  let l := l.enter (l.contracts.values.flatMap Contract.disposal)
  (l.modifyAll Contract.delete).clearContracts

def backup (l : Ledger) : Ledger := l.modifyAll Contract.backupStates

def restore (l : Ledger) : Ledger := l.modifyAll Contract.restoreStates

/-- Registers a contract for each of the given deployments whose address is not taken; returns the
addresses of the new ones. -/
def registerChildren (l : Ledger) (parent : Contract) :
    List (Address × Bytes) → Ledger × Except Failure (List Address)
  | [] => (l, .ok [])
  | (a, code) :: rest =>
    if l.hasContract a then registerChildren l parent rest
    else
      let child := Contract.create a parent.address parent.gasLimit (some code) []
      match l.resolveCode child with
      | (l, .error f) => (l, .error f)
      | (l, .ok child) =>
        match l.register child with
        | .error f => (l, .error f)
        | .ok l =>
          let (l, rest) := registerChildren l parent rest
          (l, rest.map (a :: ·))

def registerDeployments (l : Ledger) (parent : Contract) : Ledger × Except Failure (List Address) :=
  l.registerChildren parent parent.children

def registerTouched (l : Ledger) : List Address → Ledger × Except Failure (List Address)
  | [] => (l, .ok [])
  | a :: rest =>
    match l.contracts.find? a with
    | none => registerTouched l rest
    | some c =>
      match l.registerDeployments c with
      | (l, .error f) => (l, .error f)
      | (l, .ok created) =>
        let (l, rest) := registerTouched l rest
        (l, rest.map (created ++ ·))

end ChainReplay.Ledger
