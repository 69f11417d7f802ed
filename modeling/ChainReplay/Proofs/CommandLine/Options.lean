import ChainReplay.CommandLine.Command
import ChainReplay.Proofs.Decoding

/-! What the checks of the options ensure. -/

namespace ChainReplay

namespace Command

open Decoding

variable {d : Disk} {a : Arguments}

variable {arguments : List Text} {r : ReplayRequest}

end Command

end ChainReplay
