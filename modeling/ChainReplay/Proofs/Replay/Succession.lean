import ChainReplay.Proofs.Replay.Accounting
import ChainReplay.Proofs.Replay.History

/-! Successive blocks. A replay goes from height to height up to the first block that fails, so of
its results only the last can tell of a failure. -/

namespace ChainReplay

namespace ReplayResult

namespace Successive

variable {n : Nat} {height : Int} {rs : List ReplayResult}

end Successive

end ReplayResult

namespace Block

variable {fuel : Nat} {b b' : Block} {r : ReplayResult} {l m : Ledger}

end Block

namespace Stage

open ReplayResult

variable {fuel : Nat} {keepStates ignoreUnknown allowReverts seeded : Bool} {n : Nat} {height : Int}
  {s t : Stage}

end Stage

end ChainReplay
