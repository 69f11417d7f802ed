import ChainReplay.Ledger.Code

/-! The frame of a running contract: the ledger, the place where the contract's record stands, and
the deployments that its nested calls have recorded on other contracts. Running out of fuel is no
failure: it has no outcome at all, and no program can catch it. -/

namespace ChainReplay

inductive Seat where
  | registered (address : Address)
  | apart (contract : Contract)

/-- A deployment recorded on a registered contract: that contract, and the address it deployed to.
-/
abbrev Deployment := Address × Address

structure Frame where
  ledger : Ledger
  seat : Seat
  deployments : List Deployment

abbrev Run := ExceptT Failure (StateT Frame Option)

namespace Seat

/-- An address without a registered contract is read as a blank contract. -/
def contract (l : Ledger) : Seat → Contract
  | registered a => (l.contracts.find? a).getD (Contract.create a a (.amount 0) none [])
  | apart c => c

def address? : Seat → Option Address
  | registered a => some a
  | apart _ => none

end Seat

namespace Frame

def contract (f : Frame) : Contract := f.seat.contract f.ledger

def modifyContract (f : Frame) (g : Contract → Contract) : Frame :=
  match f.seat with
  | .registered a =>
    { f with ledger := { f.ledger with contracts := f.ledger.contracts.modify a g } }
  | .apart c => { f with seat := .apart (g c) }

end Frame

namespace Run

def outOfFuel {α : Type} : Run α := ExceptT.mk fun _ => none

def contract : Run Contract := Frame.contract <$> get

def ledger : Run Ledger := Frame.ledger <$> get

def modifyContract (g : Contract → Contract) : Run Unit := modify (·.modifyContract g)

def modifyLedger (g : Ledger → Ledger) : Run Unit :=
  modify fun f => { f with ledger := g f.ledger }

def enter (e : Entry) : Run Unit := modifyLedger (·.enter [e])

def note (level : Level) (text : Text) : Run Unit := modifyLedger (·.note level text)

def lift {α : Type} (x : Except Failure α) : Run α := liftM x

/-- Catches a failure; what was done before it stays done. -/
def attempt {α : Type} (act : Run α) : Run (Except Failure α) :=
  ExceptT.mk fun f => (ExceptT.run act f).map fun (result, f) => (.ok result, f)

/-- Runs in another seat of the same ledger; returns what became of the seat, and the deployments
recorded meanwhile. -/
def inSeat {α : Type} (seat : Seat) (act : Run α) :
    Run (Except Failure α × Seat × List Deployment) :=
  ExceptT.mk fun f =>
    (ExceptT.run act ⟨f.ledger, seat, []⟩).map fun (result, g) =>
      (.ok (result, g.seat, g.deployments), { f with ledger := g.ledger })

def dispose : Run Unit := do
  let c ← contract
  modifyLedger (·.enter c.disposal)
  modifyContract Contract.dispose

end Run

end ChainReplay
