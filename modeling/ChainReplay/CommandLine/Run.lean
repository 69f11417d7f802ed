import ChainReplay.CommandLine.Command
import ChainReplay.CommandLine.Terminal
import ChainReplay.Engine.Catalog
import ChainReplay.Replay.Environment
import ChainReplay.Report
import ChainReplay.Selector

/-! Carrying out a command on a working directory. -/

namespace ChainReplay

inductive Exit where
  | success
  | failure
  | misuse
  | failedBlock
  deriving DecidableEq

def Exit.code : Exit → Nat
  | success => 0
  | failure => 1
  | misuse => 2
  | failedBlock => 3

structure Surroundings where
  catalog : Catalog
  environment : Settings.Environment
  time : Text
  disk : Disk

structure Outcome where
  exit : Exit
  text : Text
  disk : Disk

namespace Command

def versionText : Text := "0.4.0"

def helpLines : List Text :=
  ["commands:", "  replay CONFIG_FILE --height N    replay recorded blocks",
    "  snapshot FEED_FILE --height N    materialize a storage feed",
    "  block BLOCK_FILE                 show the transactions of a block",
    "  selector NAME...                 show the selectors of methods"]

def showSelector (name : Text) : Task Unit := do
  let s ← liftM (ChainReplay.selector name)
  Task.print ("0x" ++ Text.padded 16 8 s ++ "  " ++ name)

def blockTransactions (d : Disk) (file : Text) : Except Failure (List Transaction) := do
  match ← d.document (Path.ofText file) .wrongValue with
  | .array documents => documents.mapM Transaction.ofJson
  | _ => throw (.setup (.blockNotArray file))

def showTransaction (tx : Transaction) : Task Unit := do
  let contract ← Task.rendered (if tx.contractName.isEmpty then tx.target.text else tx.contractName)
  let selector : Text :=
    if tx.calldata.length < 4 then "-" else "0x" ++ Bytes.hex (tx.calldata.take 4)
  Task.print (Text.join "  " [Text.ofInt tx.index, tx.txIdHex.take 16, contract, selector,
    Text.ofInt tx.gasUsed, if tx.revert.isSome then "reverted" else "passed"])

def runBlock (file : Text) (details : Bool) : Task Unit := do
  let txs ← liftM (blockTransactions (← get).disk file)
  Task.printMarkup ("Block " ++ (Path.ofText file).stem)
  txs.forM showTransaction
  Task.print ("Total: " ++ Text.ofNat txs.length ++ " transactions")
  if details then for tx in txs do Task.print tx.describe

def fromCache (s : Surroundings) (r : SnapshotRequest) : Task Storage := do
  let overrides := { Settings.Partial.none with cacheDir := r.cacheDir }
  let settings ← liftM (Settings.load s.environment overrides)
  let feed := Path.ofText r.feed
  let cache := Cache.create settings.cacheDir
  let found := cache.get (← get).disk feed r.feed r.height
  modify fun t => { t with disk := found.disk }
  let states ← liftM found.result
  Task.printMarkup ("Cache: " ++ (cache.pathFor feed r.height).text)
  return states

def saveTo (place content what : Text) : Task Unit := do
  Task.save (Path.ofText place) content
  Task.printMarkup ("[green]" ++ what ++ " saved to " ++ place ++ "[/]")

def runSnapshot (s : Surroundings) (r : SnapshotRequest) : Task Unit := do
  let states ←
    if r.cached then fromCache s r
    else liftM (Feed.load (← get).disk (Path.ofText r.feed) r.height)
  Task.print (Text.ofNat states.length ++ " pointers at block " ++ Text.ofInt r.height)
  match r.output with
  | none => return
  | some place => saveTo place (Cache.serialize states) "States"

def stage (s : Surroundings) (r : ReplayRequest) : Except Failure Stage := do
  let settings ← Settings.load s.environment r.settings
  let some name := settings.engine | throw (.setup .noEngineNamed)
  let engine ← s.catalog.find name
  let plan ← Plan.load s.disk r.plan
  return Stage.create (Ledger.create settings (some engine)) s.disk plan
    (Cache.create settings.cacheDir)

def replayAll (r : ReplayRequest) : Staged (List ReplayResult) := do
  Stage.setUp
  Stage.replay Run.depth r.height r.blocks r.keepStates r.ignoreUnknown r.allowReverts

/-- The results of a replay; calls nested without end give none. -/
def results (s : Surroundings) (r : ReplayRequest) : Task (List ReplayResult) := do
  match (ExceptT.run (replayAll r)).run (← liftM (stage s r)) with
  | none => throw .tooDeep
  | some (result, stage) =>
    modify fun t => { t with disk := stage.disk }
    liftM result

def failureLine (r : ReplayResult) : Option Text :=
  r.failure.map fun f =>
    "[red]Block " ++ Text.ofInt r.height ++ " failed: " ++ f.message ++ "[/]"

def runReplay (s : Surroundings) (r : ReplayRequest) : Task Exit := do
  let results ← results s r
  let report := Report.create r.plan.stem s.time results
  let content := match r.format with
    | .json => report.jsonText
    | .markdown => report.markdownText
  match r.output with
  | none => Task.printMarkup content
  | some place => saveTo place content "Report"
  for line in results.filterMap failureLine do Task.printMarkup line
  return if report.passed then .success else .failedBlock

def run (s : Surroundings) : Command → Task Exit
  | .replay request => runReplay s request
  | .snapshot request => do
    runSnapshot s request
    return .success
  | .block file details => do
    runBlock file details
    return .success
  | .selector names => do
    names.forM showSelector
    return .success
  | .version => do
    Task.print versionText
    return .success
  | .help => do
    helpLines.forM Task.print
    return .success

def explain (f : Failure) : Task Exit :=
  tryCatch (Task.print f.message *> return .failure) fun _ => return .failure

def task (s : Surroundings) (arguments : List Text) : Task Exit :=
  match ofArguments s.disk arguments with
  | .ok c => tryCatch (c.run s) explain
  | .error (.unusable f) => explain f
  | .error .malformed => do
    Task.print "malformed arguments"
    helpLines.forM Task.print
    return .misuse

def runArguments (s : Surroundings) (arguments : List Text) : Outcome :=
  let (result, t) := (ExceptT.run (task s arguments)).run ⟨[], s.disk⟩
  ⟨result.toOption.getD .failure, t.shown, t.disk⟩

end Command

end ChainReplay
