import ChainReplay.Execution.Call
import ChainReplay.Replay.Block
import ChainReplay.Transaction.Dump
import ChainReplay.Transaction.Revert
import ChainReplay.Transaction.Wire

/-! Replaying a block: its transactions run in recorded order until one fails. -/

namespace ChainReplay

/-- Work on a ledger that may fail; what was done before a failure stays done. -/
abbrev Chain := ExceptT Failure (StateT Ledger Option)

namespace Chain

def note (level : Level) (text : Text) : Chain Unit := modify (·.note level text)

def execute (fuel : Nat) (a : Address) (calldata : Bytes) (sender origin : Option Address) :
    Chain CallResponse :=
  ExceptT.mk fun l =>
    (l.perform (.registered a) (Run.execute (Run.call fuel) calldata sender origin)).map
      fun (result, l, _) => (result, l)

/-- Acts as the sender, and puts sender and origin back in any case. -/
def withIdentity {α : Type} (sender origin : Address) (act : Chain α) : Chain α :=
  ExceptT.mk fun l =>
    (ExceptT.run act { l with sender, origin }).map fun (result, after) =>
      (result, { after with sender := l.sender, origin := l.origin })

/-- Shows a transaction to contracts, and withdraws it in any case. -/
def withTransaction {α : Type} (id inputs outputs : Bytes) (act : Chain α) : Chain α := do
  let l ← liftM ((← get).setTransaction id inputs outputs)
  set l
  ExceptT.mk fun l => (ExceptT.run act l).map fun (result, l) => (result, l.clearTransaction)

def registerTouched (addresses : List Address) : Chain Unit := do
  let (l, result) := (← get).registerTouched addresses
  set l
  let _ ← liftM result

end Chain

namespace Block

def reportOf (tx : Transaction) (response : CallResponse) : Text :=
  let contract := if tx.contractName.isEmpty then tx.target.text else tx.contractName
  "Executed transaction " ++ tx.txIdHex ++ " for contract " ++ contract
    ++ ". (Took 0ms to execute, " ++ .ofInt response.usedGas ++ " gas used)"

def failureOf (index : Nat) (tx : Transaction) (f : Failure) : ReplayFailure :=
  match tx.revert with
  | some revert =>
    ⟨index, f.message, some tx.txIdHex, some (Transaction.revertText revert)⟩
  | none =>
    ⟨index, f.message ++ ". This transaction has no revert in the block you are replaying; "
      ++ "it should have passed but it reverted.", some tx.txIdHex, none⟩

def addExecuted (r : ReplayResult) (index : Nat) (gas : Int) : ReplayResult :=
  { r with executed := r.executed ++ [(index : Int)], gasUsed := r.gasUsed + gas }

def executeOne (fuel : Nat) (index : Nat) (tx : Transaction) (r : ReplayResult) :
    Chain (ReplayResult × Option ReplayFailure) := do
  if tx.txId.length ≠ 32 then
    let message := "Transaction id must be 32 bytes, got " ++ Text.ofNat tx.txId.length
    return (r, some ⟨index, message, some tx.txIdHex, none⟩)
  let _ ← liftM ((← get).contract? tx.target)
  let inputs ← liftM (Transaction.inputsView tx.inputs)
  let outputs ← liftM (Transaction.outputsView tx.outputs)
  let response ← Chain.withTransaction tx.txId inputs outputs
    (Chain.withIdentity tx.sender tx.sender
      (Chain.execute fuel tx.target tx.calldata (some tx.sender) (some tx.sender)))
  let r := addExecuted r index response.usedGas
  match response.result with
  | .ok _ =>
    Chain.note .debug (reportOf tx response)
    Chain.registerTouched response.callStack
    return (r, none)
  | .error f =>
    Chain.note .error (reportOf tx response ++ " " ++ f.message)
    let failure := failureOf index tx f
    match failure.recordedRevert with
    | some words =>
      Chain.note .error ("Original error for " ++ tx.txIdHex ++ ": " ++ words)
    | none => pure ()
    return (r, some failure)

/-- Runs the transactions that are not skipped, up to the first failure that is not tolerated. -/
def executeAll (fuel : Nat) (b : Block) (r : ReplayResult) :
    List (Transaction × Nat) → Chain (ReplayResult × Option ReplayFailure)
  | [] => return (r, none)
  | (tx, index) :: rest =>
    if r.skipped.contains (index : Int) then executeAll fuel b r rest
    else do
      match ← executeOne fuel index tx r with
      | (r, none) => executeAll fuel b r rest
      | (r, some failure) =>
        if b.allowReverts && tx.revert.isSome then
          Chain.note .warning
            ("transaction " ++ tx.txIdHex ++ " reverted on chain as well, continuing")
          executeAll fuel b { r with tolerated := r.tolerated ++ [failure] } rest
        else
          if tx.revert.isNone then Chain.note .info tx.describe
          return (r, some failure)

def finish (b : Block) (r : ReplayResult) (failure : Option ReplayFailure) (l : Ledger) :
    ReplayResult × Block × Ledger :=
  let height := Text.ofInt b.height
  match failure with
  | none =>
    let text := "Block " ++ height ++ " replayed: " ++ Text.ofNat r.executed.length ++ " executed, "
      ++ Text.ofNat r.skipped.length ++ " skipped, " ++ Text.ofInt r.gasUsed ++ " gas"
    ({ r with status := .completed, failure := b.failure }, { b with status := .completed },
      l.note .info text)
  | some f =>
    let text := "Block " ++ height ++ " replay failed at transaction #" ++ Text.ofInt f.index ++ "."
    ({ r with status := .failed, failure := some f }, b.fail f, l.note .error text)

def replay (fuel : Nat) (b : Block) (l : Ledger) :
    Option (Except Failure ReplayResult × Block × Ledger) :=
  let (skipped, b, l) := b.verify l
  let r : ReplayResult := ⟨b.height, b.status, [], skipped, 0, none, []⟩
  if b.status = .failed then
    some (.ok { r with failure := b.failure }, b,
      l.note .error ("Block " ++ Text.ofInt b.height ++ " replay failed before execution."))
  else
    let b := { b with status := .executing }
    (ExceptT.run (executeAll fuel b r b.transactions.zipIdx) { l with blockNumber := b.height }).map
      fun
      | (.error f, l) => (.error f, b, l)
      | (.ok (r, failure), l) =>
        let (r, b, l) := finish b r failure l
        (.ok r, b, l)

end Block

end ChainReplay
