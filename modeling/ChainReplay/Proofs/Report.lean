import Mathlib.Algebra.Order.Ring.Int
import ChainReplay.Proofs.Replay.Succession
import ChainReplay.Report

/-! What the report of a replay says of its blocks. -/

namespace ChainReplay

open ReplayResult

variable {n : Nat} {height blocks : Int} {rs : List ReplayResult}

/-- A report of up to so many blocks from a height on: its verdict and its figures are those of the
blocks that it lists. -/
structure Report.Faithful (p : Report) (height blocks : Int) : Prop where
  heights : ∀ (k : Nat) r, p.results[k]? = some r → r.height = height + k
  completed : ∀ r ∈ p.results.dropLast, r.status = .completed
  passed_iff : p.passed = true ↔
    p.summary.completed = p.summary.blocks ∧ (p.summary.blocks : Int) = blocks
  failed_iff : p.passed = false ↔
    p.summary.failed = 1 ∧ ∃ r, p.results.getLast? = some r ∧ r.status = .failed
  listed : p.summary.blocks = p.results.length
  executed : p.summary.executed = (p.results.map (·.executed.length)).sum
  skipped : p.summary.skipped = (p.results.map (·.skipped.length)).sum
  tolerated : p.summary.tolerated = (p.results.map (·.tolerated.length)).sum
  gasUsed : p.summary.gasUsed = (p.results.map (·.gasUsed)).sum

namespace ReplayResult.Successive

end ReplayResult.Successive

namespace Report

end Report

end ChainReplay
