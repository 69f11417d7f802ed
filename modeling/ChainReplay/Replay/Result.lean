import ChainReplay.Failure.Basic

/-! Results of block replays. -/

namespace ChainReplay

inductive ReplayStatus where
  | loaded
  | verified
  | executing
  | completed
  | failed
  deriving DecidableEq

namespace ReplayStatus

def name : ReplayStatus → Text
  | loaded => "loaded"
  | verified => "verified"
  | executing => "executing"
  | completed => "completed"
  | failed => "failed"

def ofName? (t : Text) : Option ReplayStatus :=
  [loaded, verified, executing, completed, failed].find? (·.name = t)

end ReplayStatus

/-- A transaction that failed, or, with a negative index, a block that failed before its first
one. -/
structure ReplayFailure where
  index : Int
  message : Text
  transaction : Option Text
  recordedRevert : Option Text
  deriving DecidableEq

structure ReplayResult where
  height : Int
  status : ReplayStatus
  executed : List Int
  skipped : List Int
  gasUsed : Int
  failure : Option ReplayFailure
  tolerated : List ReplayFailure
  deriving DecidableEq

namespace ReplayFailure

def textOrNull : Option Text → Json
  | none => .null
  | some t => .text t

def toJson (f : ReplayFailure) : Json :=
  .object [("index", .int f.index), ("tx_id", textOrNull f.transaction),
    ("message", .text f.message), ("original_revert", textOrNull f.recordedRevert)]

end ReplayFailure

namespace ReplayResult

def isOk (r : ReplayResult) : Bool := r.status = .completed

def error? (r : ReplayResult) : Option Failure :=
  r.failure.map fun f => .block ⟨r.height, f.index, f.message, f.transaction⟩

def toJson (r : ReplayResult) : Json :=
  .object [("height", .int r.height), ("status", .text r.status.name),
    ("executed", .array (r.executed.map .int)), ("skipped", .array (r.skipped.map .int)),
    ("gas_used", .int r.gasUsed), ("failure", (r.failure.map ReplayFailure.toJson).getD .null),
    ("tolerated", .array (r.tolerated.map ReplayFailure.toJson))]

end ReplayResult

end ChainReplay
