import ChainReplay.Json.File
import ChainReplay.Ledger.Registry
import ChainReplay.Replay.Result
import ChainReplay.Transaction.Document

/-! Recorded blocks: loading one from its file, and checking that the ledger knows its contracts. -/

namespace ChainReplay

structure Block where
  height : Int
  transactions : List Transaction
  ignoreUnknown : Bool
  allowReverts : Bool
  status : ReplayStatus
  failure : Option ReplayFailure

namespace Block

def pathOf (directory : Path) (height : Int) : Path :=
  directory / ⟨.relative, [Text.ofInt height ++ ".json"]⟩

def loadTransactions (d : Disk) (directory : Path) (height : Int) :
    Except Failure (List Transaction) := do
  let path := pathOf directory height
  match ← d.document path (.format (.unreadableBlock height path)) with
  | .array documents => documents.mapM Transaction.ofJson
  | _ => throw (.format (.blockNotArray path))

def create (height : Int) (transactions : List Transaction) (ignoreUnknown allowReverts : Bool) :
    Block :=
  ⟨height, transactions, ignoreUnknown, allowReverts, .loaded, none⟩

def fail (b : Block) (f : ReplayFailure) : Block :=
  { b with status := .failed, failure := some f }

def load (l : Ledger) (d : Disk) (directory : Path) (height : Int)
    (ignoreUnknown allowReverts : Bool) : Except Failure (Block × Ledger) :=
  match loadTransactions d directory height with
  | .ok transactions => .ok (create height transactions ignoreUnknown allowReverts, l)
  | .error (.format error) =>
    let failure : ReplayFailure := ⟨-1, error.message, none, none⟩
    .ok ((create height [] ignoreUnknown allowReverts).fail failure, l.note .error error.message)
  | .error f => .error f

def scan (b : Block) (l : Ledger) :
    List (Transaction × Nat) → Ledger × Except ReplayFailure (List Int)
  | [] => (l, .ok [])
  | (tx, index) :: rest =>
    if l.hasContract tx.target then scan b l rest
    else if b.ignoreUnknown then
      let l := l.note .debug ("skipping transaction #" ++ Text.ofNat index ++ ", contract "
        ++ tx.target.text ++ " is not loaded")
      let (l, skipped) := scan b l rest
      (l, skipped.map ((index : Int) :: ·))
    else
      let message := "Contract " ++ tx.target.text ++ " not found in block " ++ Text.ofInt b.height
      (l.note .error message, .error ⟨index, message, some tx.txIdHex, none⟩)

def verify (b : Block) (l : Ledger) : List Int × Block × Ledger :=
  if b.status = .failed then ([], b, l)
  else match b.scan l b.transactions.zipIdx with
    | (l, .ok skipped) => (skipped, { b with status := .verified }, l)
    | (l, .error f) => ([], b.fail f, l)

def shown (b : Block) : Text :=
  "BlockReplay(height=" ++ Text.ofInt b.height ++ ", transactions=" ++ .ofNat b.transactions.length
    ++ ", status=" ++ b.status.name ++ ")"

end Block

end ChainReplay
