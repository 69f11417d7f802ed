import ChainReplay.Ledger.Registry

/-! Overrides of a contract's storage. What a contract had before its first override is put aside,
so that all overrides can be undone. -/

namespace ChainReplay

abbrev Overrides := Table Address Snapshot

namespace Overrides

def remember (o : Overrides) (l : Ledger) (c : Contract) (a : Address) : Overrides :=
  Table.insertNew o a (c.snapshot l.blockNumber)

def overrideStates (o : Overrides) (l : Ledger) (a : Address) (states : Storage) :
    Except Failure (Overrides × Ledger) := do
  let c ← l.contract? a
  let changed := l.modifyContract a (·.setStates states)
  let text :=
    "overrode storage of " ++ a.text ++ " with " ++ Text.ofNat states.length ++ " pointers"
  return (o.remember l c a, changed.note .debug text)

def overrideDeployment (o : Overrides) (l : Ledger) (a : Address) :
    Except Failure (Overrides × Ledger) := do
  let c ← l.contract? a
  return (o.remember l c a, l.modifyContract a fun c => { c with deployed := true })

def purge (o : Overrides) (l : Ledger) : Ledger :=
  let l := o.foldl (fun l (a, before) => l.modifyContract a (·.applySnapshot before)) l
  if o.isEmpty then l
  else l.note .debug ("purged overrides for " ++ Text.ofNat o.length ++ " contracts")

def modified (l : Ledger) (a : Address) (candidate : Storage) : Except Failure Storage := do
  return (← l.contract? a).states.modified candidate

end Overrides

end ChainReplay
