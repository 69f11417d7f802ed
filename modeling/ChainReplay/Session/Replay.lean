import ChainReplay.Session.Basic

/-! What a session does beside its contracts: overrides, the cache, blocks and plans. -/

namespace ChainReplay.Session

def override (f : Overrides → Ledger → Except Failure (Overrides × Ledger)) : Play Unit := do
  let s ← get
  let (overrides, ledger) ← lift (f s.overrides s.ledger)
  set { s with overrides, ledger }

def purge : Play Unit :=
  modify fun s => { s with ledger := s.overrides.purge s.ledger, overrides := [] }

def loadCode (path : Path) (a : Address) : Play Bytes := do
  let s ← get
  let (ledger, code) ← lift (s.ledger.loadCode s.disk path a)
  set { s with ledger }
  return code

/-- Storage as of a height; the feed is known to the cache under the given name. -/
def cached (name : Text) (height : Int) : Play Storage := do
  let s ← get
  let found := s.cache.get s.disk (Path.ofText name) name height
  let ledger := { s.ledger with notices := s.ledger.notices ++ found.notices }
  set { s with cache := found.cache, disk := found.disk, ledger }
  lift found.result

def file {α : Type} (act : Filing α) : Play α := do
  let (result, disk) := (ExceptT.run act).run (← get).disk
  modify fun s => { s with disk }
  lift result

def addBlock (name : Text) (b : Block) : Play Unit :=
  modify fun s => { s with blocks := Table.insert name b s.blocks }

def loadBlock (name : Text) (directory : Option Path) (height : Int)
    (ignoreUnknown allowReverts : Bool) : Play Block := do
  let s ← get
  let directory := directory.getD s.ledger.settings.blockDir
  let (b, ledger) ← lift (Block.load s.ledger s.disk directory height ignoreUnknown allowReverts)
  set { s with ledger }
  addBlock name b
  return b

def verifyBlock (name : Text) : Play (List Int × Block) := do
  let b ← named (← get).blocks name
  let (skipped, b, l) := b.verify (← get).ledger
  modifyLedger fun _ => l
  addBlock name b
  return (skipped, b)

def addResults (results : List ReplayResult) : Play Unit :=
  modify fun s => { s with results := s.results ++ results }

def replayBlock (name : Text) : Play ReplayResult := do
  let b ← named (← get).blocks name
  let (result, b, l) ← finish (b.replay Run.depth (← get).ledger)
  modifyLedger fun _ => l
  addBlock name b
  let r ← lift result
  addResults [r]
  return r

def raiseFailure : Play Unit := do
  match (← get).results.getLast?.bind ReplayResult.error? with
  | some f => throw f
  | none => return

def staged {α : Type} (act : Staged α) : Play α := do
  let s ← get
  match s.stage with
  | none => throw .wrongMember
  | some stage =>
    let (result, stage) ← finish
      ((ExceptT.run act).run { stage with ledger := s.ledger, disk := s.disk })
    set { s with ledger := stage.ledger, disk := stage.disk, stage := some stage }
    lift result

def openPlan (path : Path) (cacheDir : Option Path) : Play Stage := do
  let s ← get
  let plan ← lift (Plan.load s.disk path)
  let cache := Cache.create (cacheDir.getD s.ledger.settings.cacheDir)
  let stage := Stage.create s.ledger s.disk plan cache
  set { s with stage := some stage }
  return stage

def replayPlan (start count : Int) (keepStates ignoreUnknown allowReverts : Bool) :
    Play (List ReplayResult) := do
  let results ← staged (Stage.replay Run.depth start count keepStates ignoreUnknown allowReverts)
  addResults results
  return results

end ChainReplay.Session
