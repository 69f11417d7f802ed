import ChainReplay.Feed.Stream
import ChainReplay.Json.File
import ChainReplay.Json.Printer
import ChainReplay.Ledger.Journal

/-! Materialized feeds, kept in memory and as files of sorted pairs of hexadecimal words. -/

namespace ChainReplay

structure Cache where
  directory : Path
  memory : Table (Text × Int) Storage

structure Lookup where
  result : Except Failure Storage
  disk : Disk
  cache : Cache
  notices : List Notice

namespace Cache

def create (directory : Path) : Cache := ⟨directory, []⟩

def clear (c : Cache) : Cache := { c with memory := [] }

def pathFor (c : Cache) (feed : Path) (height : Int) : Path :=
  c.directory / ⟨.relative, ["cache-" ++ feed.name ++ "-" ++ Text.ofInt height ++ ".json"]⟩

def hexPair (entry : Int × Int) : Json :=
  .array [.text (Text.hexadecimal 64 entry.1), .text (Text.hexadecimal 64 entry.2)]

def serialize (states : Storage) : Text :=
  (Json.array ((states.mergeSort fun a b => a.1 ≤ b.1).map hexPair)).compact

def hexNumber? : Json → Option Int
  | .text t => Numeral.hexadecimal? t
  | _ => none

def entry? (pair : Json) : Option (Int × Int) :=
  match pair.elements with
  | .ok [pointer, value] => do return (← hexNumber? pointer, ← hexNumber? value)
  | _ => none

def parseEntries (path : Path) (found : Storage) : List Json → Except Failure Storage
  | [] => .ok found
  | pair :: rest =>
    match entry? pair with
    | none => .error (.format (.badCacheEntry path pair))
    | some (pointer, value) => parseEntries path (found.store pointer value) rest

def load (d : Disk) (path : Path) : Except Failure Storage := do
  let document ← d.document path (.format (.unreadableCache path))
  parseEntries path [] (← document.elements)

def save (path : Path) (states : Storage) : Filing Unit := do
  Filing.makeDirectory path.parent
  Filing.write path ((Utf8.encode? (serialize states)).getD [])

def fill (c : Cache) (feed : Path) (height : Int) : Filing Storage := do
  let states ← Filing.lift (Feed.load · feed height)
  save (c.pathFor feed height) states
  return states

def keep (c : Cache) (name : Text) (height : Int) (states : Storage) : Cache :=
  { c with memory := Table.insert (name, height) states c.memory }

def find (c : Cache) (d : Disk) (feed : Path) (name : Text) (height : Int) : Lookup :=
  let path := c.pathFor feed height
  let notices := [⟨.info, "cache hit " ++ path.text⟩]
  match load d path with
  | .error f => ⟨.error f, d, c, notices⟩
  | .ok states => ⟨.ok states, d, c.keep name height states, notices⟩

def make (c : Cache) (d : Disk) (feed : Path) (name : Text) (height : Int) : Lookup :=
  let miss : Notice :=
    ⟨.info, "cache miss, materializing " ++ name ++ " at block " ++ Text.ofInt height⟩
  match (ExceptT.run (c.fill feed height)).run d with
  | (.error f, d) => ⟨.error f, d, c, [miss]⟩
  | (.ok states, d) =>
    let cached := "cached " ++ Text.ofNat states.length ++ " pointers -> "
      ++ (c.pathFor feed height).text
    ⟨.ok states, d, c.keep name height states, [miss, ⟨.info, cached⟩]⟩

def get (c : Cache) (d : Disk) (feed : Path) (name : Text) (height : Int) : Lookup :=
  match c.memory.find? (name, height) with
  | some states => ⟨.ok states, d, c, []⟩
  | none =>
    match d.present (c.pathFor feed height) with
    | .error f => ⟨.error f, d, c, []⟩
    | .ok true => c.find d feed name height
    | .ok false => c.make d feed name height

end Cache

end ChainReplay
