import ChainReplay.Disk
import ChainReplay.Json.Reader

/-! Documents in files. -/

namespace ChainReplay.Disk

/-- The document in a file. A file that cannot be used and a malformed text are reported as the
caller puts it. -/
def document (d : Disk) (p : Path) (unreadable : Failure) : Except Failure Json := do
  let content ← d.readOr p unreadable
  (Json.parse (← textOf content)).mapError (Json.ReadError.failure unreadable)

end ChainReplay.Disk
