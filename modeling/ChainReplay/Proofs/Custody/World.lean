import Mathlib.Logic.Function.Basic
import ChainReplay.Proofs.Custody.Turnover
import ChainReplay.Proofs.Replay.Turns
import ChainReplay.Replay.Environment

/-! A ledger and all the runtimes that there are for it: those that are registered, and those that are
not, or no longer. The world goes from operation to operation as its users ask for them. -/

namespace ChainReplay

/-- A contract that can be run, and whether the last execution of it has succeeded, if there was one and
it is known. -/
structure Runtime where
  contract : Contract
  verdict : Option Bool

/-- What is known of executions is noted by address for those contracts that are registered, and so are
the numbers of all handles that were ever given out. -/
structure World where
  ledger : Ledger
  verdicts : Address → Option Bool
  loose : List Runtime
  granted : List Nat

/-- What can be asked of a runtime. -/
inductive Demand where
  | init
  | deploy
  | execute (calldata : Bytes) (sender origin : Option Address)
  | receive (calldata : Bytes) (sender origin : Address)
  | call (target : Address) (calldata : Bytes)
  | answer (request : HostFunction) (data : Bytes)
  | environment (given : EnvironmentGiven)
  | dispose
  | delete
  | change (k : Contract → Contract) (hk : ∀ c, (k c).number? = c.number?)

namespace Demand

def silently {α : Type} (x : Run α) : Run (Option Bool) := do
  let _ ← x
  return none

def judging (x : Run CallResponse) : Run (Option Bool) := do
  let response ← x
  return some response.result.isOk

def resolve : Run Unit := do
  let c ← Run.contract
  let (l, resolved) := (← Run.ledger).resolveCode c
  Run.modifyLedger fun _ => l
  let resolved ← Run.lift resolved
  Run.modifyContract fun c => { c with code := resolved.code }

def run (fuel : Nat) : Demand → Run (Option Bool)
  | init => silently resolve
  | deploy => silently (Run.deploy (Run.call fuel))
  | execute calldata sender origin =>
    judging (Run.execute (Run.call fuel) calldata sender origin)
  | receive calldata sender origin =>
    judging (Run.receive calldata
      (Run.execute (Run.call fuel) calldata (some sender) (some origin)))
  | call target calldata => silently (Run.call fuel target calldata)
  | answer request data => silently (Host.answer (Run.call fuel) request data)
  | environment given => silently (Run.setEnvironment given)
  | dispose => silently Run.dispose
  | delete => silently do
    Run.dispose
    Run.modifyContract Contract.delete
  | change k _ => silently (Run.modifyContract k)

end Demand

inductive Place where
  | registered (address : Address)
  | loose (index : Nat)

/-- What a stage does to its ledger beside replaying blocks. -/
inductive Preparation where
  | setUp
  | loadStates (height : Int)
  | cleanUp

namespace Preparation

def run : Preparation → Staged Unit
  | setUp => Stage.setUp
  | loadStates height => Stage.loadStates height
  | cleanUp => Stage.cleanUp

def forsakes : Preparation → Bool
  | setUp => false
  | _ => true

end Preparation

/-- What users do to a world. Contracts that the ledger has given up are still theirs to recover. -/
inductive Operation where
  | create (address deployer : Address) (gasLimit : GasLimit) (ownCode : Option Bytes)
      (constructorCalldata : Bytes)
  | register (index : Nat)
  | perform (place : Place) (demand : Demand)
  | registerDeployments (place : Place)
  | registerTouched (addresses : List Address)
  | init
  | dispose
  | cleanup
  | clear
  | backup
  | restore
  | recover
  | adjust (g : Ledger → Ledger) (hg : ∀ l, (g l).contracts = l.contracts ∧ (g l).retired = l.retired ∧
      (g l).handles = l.handles ∧ (g l).journal = l.journal)
  | prepare (stage : Stage) (preparation : Preparation)
  | replay (block : Block)

namespace World

def start (settings : Settings) (engine : Option Engine) : World :=
  ⟨Ledger.create settings engine, fun _ => none, [], []⟩

def registered (w : World) : List Runtime :=
  w.ledger.contracts.map fun (a, c) => ⟨c, w.verdicts a⟩

/-- Contracts that the ledger has given up; of their executions nothing is known any more. -/
def retired (w : World) : List Runtime := w.ledger.retired.map fun c => ⟨c, none⟩

def runtimes (w : World) : List Runtime := w.registered ++ w.retired ++ w.loose

def holders (w : World) (n : Nat) : List Runtime :=
  w.runtimes.filter fun r => r.contract.number? = some n

/-- The ledger has become this one. -/
def follow (w : World) (l : Ledger) : World :=
  { w with
    ledger := l
    granted := w.granted ++ grants w.ledger.engine (l.journal.drop w.ledger.journal.length) }

def forget (w : World) : World := { w with verdicts := fun _ => none }

def judge (w : World) (a : Address) (verdict : Option Bool) : World :=
  { w with verdicts := Function.update w.verdicts a verdict }

def seat? (w : World) : Place → Option Seat
  | .registered a => if w.ledger.hasContract a then some (.registered a) else none
  | .loose i => w.loose[i]?.map fun r => .apart r.contract

def verdict (w : World) : Place → Option Bool
  | .registered a => w.verdicts a
  | .loose i => w.loose[i]?.bind Runtime.verdict

def put (w : World) (seat : Seat) (verdict : Option Bool) : Place → World
  | .registered a => w.judge a verdict
  | .loose i => { w with loose := w.loose.set i ⟨seat.contract w.ledger, verdict⟩ }

/-- What is said after a demand, if it has said nothing of itself. -/
def verdictOf (before : Option Bool) : Except Failure (Option Bool) → Option Bool
  | .ok (some succeeded) => some succeeded
  | _ => before

def perform (fuel : Nat) (w : World) (place : Place) (demand : Demand) : Option World :=
  match w.seat? place with
  | none => some w
  | some seat => (w.ledger.perform seat (demand.run fuel)).map fun (result, l, seat) =>
    (w.follow l).put seat (verdictOf (w.verdict place) result) place

/-- A run that users start at a place themselves. -/
def enact (w : World) (place : Place) (x : Run (Option Bool)) : Option World :=
  match w.seat? place with
  | none => some w
  | some seat => (w.ledger.perform seat x).map fun (result, l, seat) =>
    (w.follow l).put seat (verdictOf (w.verdict place) result) place

lemma perform_eq_enact (fuel : Nat) (w : World) (place : Place) (demand : Demand) :
    w.perform fuel place demand = w.enact place (demand.run fuel) := rfl

lemma enact_cases {w v : World} {place : Place} {x : Run (Option Bool)}
    (h : w.enact place x = some v) :
    w.seat? place = none ∧ v = w ∨ ∃ seat q g, w.seat? place = some seat ∧
      x.outcome ⟨w.ledger, seat, []⟩ = some (q, g) ∧
      v = (w.follow g.ledger).put g.seat (verdictOf (w.verdict place) q) place := by
  rw [enact] at h
  split at h
  next hnone =>
    cases h
    exact .inl ⟨hnone, rfl⟩
  next seat hseat =>
    obtain ⟨⟨q, l, seat'⟩, hrun, rfl⟩ := Option.map_eq_some_iff.mp h
    rw [Run.perform_eq, Option.map_eq_some_iff] at hrun
    obtain ⟨⟨q', g⟩, hrun, heq⟩ := hrun
    cases heq
    exact .inr ⟨seat, q, g, hseat, hrun, rfl⟩

def register (w : World) (index : Nat) : World :=
  match w.loose[index]? with
  | none => w
  | some r =>
    match w.ledger.register r.contract with
    | .error _ => w
    | .ok l =>
      { (w.follow l).judge r.contract.address r.verdict with loose := w.loose.eraseIdx index }

def turned (fuel : Nat) (verdicts : Address → Option Bool) (t : Block.Turn) : Address → Option Bool :=
  match t.outcome fuel with
  | some (.ok response, _) => Function.update verdicts t.transaction.target (some response.result.isOk)
  | _ => verdicts

/-- An operation that fails leaves what was done before the failure, and one that is cut off leaves
nothing. -/
def step (fuel : Nat) (w : World) : Operation → Option World
  | .create address deployer gasLimit ownCode constructorCalldata =>
    let c := Contract.create address deployer gasLimit ownCode constructorCalldata
    some { w with loose := w.loose ++ [⟨c, none⟩] }
  | .register index => some (w.register index)
  | .perform place demand => w.perform fuel place demand
  | .registerDeployments place =>
    match w.seat? place with
    | none => some w
    | some seat => some (w.follow (w.ledger.registerDeployments (seat.contract w.ledger)).1)
  | .registerTouched addresses => some (w.follow (w.ledger.registerTouched addresses).1)
  | .init => some (w.follow w.ledger.init.1)
  | .dispose => some (w.follow w.ledger.dispose)
  | .cleanup => some (w.follow w.ledger.cleanup).forget
  | .clear =>
    some { w.forget with
      ledger := { w.ledger.clearContracts with retired := w.ledger.retired }
      loose := w.registered ++ w.loose }
  | .backup => some (w.follow w.ledger.backup)
  | .restore => some (w.follow w.ledger.restore)
  | .recover => some { w with ledger := { w.ledger with retired := [] }, loose := w.retired ++ w.loose }
  | .adjust g _ => some { w with ledger := g w.ledger }
  | .prepare stage preparation =>
    ((ExceptT.run preparation.run).run { stage with ledger := w.ledger }).map fun (_, stage) =>
      if preparation.forsakes then (w.follow stage.ledger).forget else w.follow stage.ledger
  | .replay b => (b.replay fuel w.ledger).map fun (_, _, l) =>
    { w.follow l with verdicts := (b.turns fuel w.ledger).foldl (turned fuel) w.verdicts }

def run (fuel : Nat) (w : World) : List Operation → Option World
  | [] => some w
  | operation :: rest => (w.step fuel operation).bind fun w => w.run fuel rest

end World

end ChainReplay
