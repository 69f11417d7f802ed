import ChainReplay.Feed.Cache
import ChainReplay.Ledger.Override
import ChainReplay.Replay.Plan
import ChainReplay.Replay.Run

/-! Carrying out a plan: its contracts are registered, seeded from their feeds, and blocks are
replayed on them one after the other. -/

namespace ChainReplay

structure Stage where
  ledger : Ledger
  disk : Disk
  plan : Plan
  cache : Cache
  overrides : Overrides
  members : List Address

/-- Work on a stage that may fail; what was done before a failure stays done. -/
abbrev Staged := ExceptT Failure (StateT Stage Option)

namespace Stage

def create (ledger : Ledger) (disk : Disk) (plan : Plan) (cache : Cache) : Stage :=
  ⟨ledger, disk, plan, cache, [], []⟩

def modifyLedger (g : Ledger → Ledger) : Staged Unit :=
  modify fun s => { s with ledger := g s.ledger }

def note (level : Level) (text : Text) : Staged Unit := modifyLedger (·.note level text)

def contract? (s : Stage) (a : Address) : Except Failure Address :=
  if s.members.contains a then .ok a else .error (.setup (.notConfigured a))

def loadCode (c : ContractPlan) : Staged Unit := do
  let s ← get
  let path ← liftM (s.plan.codePath s.ledger.settings.hrp c)
  let (l, _) ← liftM (s.ledger.loadCode s.disk path c.address)
  modifyLedger fun _ => l

def registerOne (c : ContractPlan) : Staged Unit := do
  let s ← get
  let limit := c.gasLimit.getD (.amount s.ledger.settings.gasLimit)
  let l ← liftM (s.ledger.register
    (Contract.create c.address (c.deployer.getD s.plan.admin) limit none []))
  set { s with ledger := l, members := s.members ++ [c.address] }

def registerContracts : Staged Unit := do
  modify fun s => { s with members := [] }
  for c in (← get).plan.contracts do registerOne c

def initLedger : Staged Unit := do
  let (l, result) := (← get).ledger.init
  modifyLedger fun _ => l
  liftM result

def setUp : Staged Unit := do
  let s ← get
  modifyLedger fun l => { l with sender := s.plan.admin, origin := s.plan.admin }
  for c in s.plan.contracts do loadCode c
  registerContracts
  initLedger
  note .info ("initialized " ++ .ofNat (← get).members.length ++ " contracts")

def purge : Staged Unit :=
  modify fun s => { s with ledger := s.overrides.purge s.ledger, overrides := [] }

def seed (height : Int) (c : ContractPlan) : Staged Unit := do
  match c.states with
  | none => return
  | some feed =>
    note .info ("loading states for " ++ c.label.shown ++ " at block " ++ .ofInt height)
    let s ← get
    let found := s.cache.get s.disk feed feed.text height
    modify fun s =>
      { s with
        cache := found.cache, disk := found.disk,
        ledger := { s.ledger with notices := s.ledger.notices ++ found.notices } }
    let states ← liftM found.result
    let s ← get
    let (overrides, l) ← liftM (s.overrides.overrideStates s.ledger c.address states)
    let (overrides, l) ← liftM (overrides.overrideDeployment l c.address)
    set { s with overrides, ledger := l }

def loadStates (height : Int) : Staged Unit := do
  purge
  modifyLedger fun l => l.dispose.cleanup
  registerContracts
  initLedger
  for c in (← get).plan.contracts do seed height c

def replayBlock (fuel : Nat) (height : Int) (ignoreUnknown allowReverts : Bool) :
    Staged ReplayResult := do
  note .info ("replaying block " ++ .ofInt height)
  let s ← get
  let (b, l) ← liftM
    (Block.load s.ledger s.disk s.ledger.settings.blockDir height ignoreUnknown allowReverts)
  ExceptT.mk fun s => (b.replay fuel l).map fun (result, _, l) => (result, { s with ledger := l })

/-- Replays consecutive blocks up to the first that fails. Storage is seeded before each of them, or
only before the first if new states are kept. -/
def replayFrom (fuel : Nat) (keepStates ignoreUnknown allowReverts : Bool) (seeded : Bool) :
    Nat → Int → Staged (List ReplayResult)
  | 0, _ => return []
  | n + 1, height => do
    if !(seeded && keepStates) then loadStates (height - 1)
    let result ← replayBlock fuel height ignoreUnknown allowReverts
    if !result.isOk then return [result]
    return result :: (← replayFrom fuel keepStates ignoreUnknown allowReverts true n (height + 1))

def replay (fuel : Nat) (start count : Int) (keepStates ignoreUnknown allowReverts : Bool) :
    Staged (List ReplayResult) :=
  replayFrom fuel keepStates ignoreUnknown allowReverts false count.toNat start

def cleanUp : Staged Unit := do
  modify fun s => { s with members := [], cache := s.cache.clear }
  purge
  modifyLedger fun l => l.dispose.cleanup

end Stage

end ChainReplay
