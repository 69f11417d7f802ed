import ChainReplay.Replay.Environment

/-! Sessions: a ledger and what is kept beside it. Contracts, blocks and snapshots have names in a
session; a registered contract is also known by its address. -/

namespace ChainReplay

structure Session where
  ledger : Ledger
  disk : Disk
  overrides : Overrides
  cache : Cache
  results : List ReplayResult
  blocks : Table Text Block
  snapshots : Table Text Snapshot
  contracts : Table Text Seat
  stage : Option Stage

/-- A step of a session; what was done before a failure stays done. -/
abbrev Play := ExceptT Failure (StateT Session Option)

structure Observation (α : Type) where
  outcome : Except Failure α
  journal : List Entry
  notices : List Notice

namespace Session

def create (ledger : Ledger) (disk : Disk) : Session where
  ledger := ledger
  disk := disk
  overrides := []
  cache := Cache.create "cache"
  results := []
  blocks := []
  snapshots := []
  contracts := []
  stage := none

def lift {α : Type} (x : Except Failure α) : Play α := liftM x

/-- What has run out of fuel has no outcome, and neither has the step. -/
def finish {α : Type} (x : Option α) : Play α := ExceptT.lift (StateT.lift x)

def named {α : Type} (t : Table Text α) (name : Text) : Play α :=
  match t.find? name with
  | some a => pure a
  | none => throw .wrongMember

def modifyLedger (f : Ledger → Ledger) : Play Unit :=
  modify fun s => { s with ledger := f s.ledger }

/-- Changes the ledger in a way that may fail; then the ledger stays as it was. -/
def updateLedger (f : Ledger → Except Failure Ledger) : Play Unit := do
  let l ← lift (f (← get).ledger)
  modifyLedger fun _ => l

/-- Changes the ledger even if the change fails on its way. -/
def commitLedger {α : Type} (f : Ledger → Ledger × Except Failure α) : Play α := do
  let (l, result) := f (← get).ledger
  modifyLedger fun _ => l
  lift result

def follow (retired : List Contract) : Seat → Seat
  | .registered a =>
    match retired.find? (·.address = a) with
    | some c => .apart c
    | none => .registered a
  | .apart c => .apart c

def settle (s : Session) : Session :=
  { s with
    contracts := s.contracts.map fun (name, seat) => (name, follow s.ledger.retired seat),
    ledger := { s.ledger with retired := [] } }

def quiet (s : Session) : Session :=
  { s with ledger := { s.ledger with journal := [], notices := [] } }

def observe {α : Type} (outcome : Except Failure α) (s : Session) : Observation α × Session :=
  (⟨outcome, s.ledger.journal, s.ledger.notices⟩, s.settle.quiet)

def allContracts (s : Session) : List (Text × Contract) :=
  let known := s.contracts.map fun (name, seat) => (name, seat.contract s.ledger)
  let taken := s.contracts.filterMap fun (_, seat) => seat.address?
  let rest := s.ledger.contracts.filter fun (a, _) => !taken.contains a
  known ++ rest.map fun (a, c) => (a.text, c)

def overview (s : Session) : List Text :=
  (s.ledger.shown :: s.ledger.contracts.values.map Contract.shown)
    ++ s.blocks.values.map Block.shown ++ [s.ledger.sender.shown]

end Session

end ChainReplay
