import ChainReplay.Console.Markup
import ChainReplay.Disk

/-! What a command works with: a disk, and a screen on which it shows lines. Only text that has a
byte form can be shown. -/

namespace ChainReplay

structure Terminal where
  shown : Text
  disk : Disk

/-- Work at a terminal that may fail; what was done before a failure stays done. -/
abbrev Task := ExceptT Failure (StateM Terminal)

namespace Task

def file {α : Type} (act : Filing α) : Task α := do
  let (result, disk) := (ExceptT.run act).run (← get).disk
  modify fun t => { t with disk }
  liftM result

def print (line : Text) : Task Unit :=
  match Utf8.encode line with
  | .error part => throw (.unencodable part)
  | .ok _ => modify fun t => { t with shown := t.shown ++ line ++ "\n" }

def rendered (t : Text) : Task Text := liftM ((Markup.render t).mapError Failure.markup)

def printMarkup (line : Text) : Task Unit := do print (← rendered line)

/-- Writes a text into a file. One without a byte form leaves the file empty. -/
def save (path : Path) (content : Text) : Task Unit :=
  match Utf8.encode content with
  | .ok bytes => file (Filing.write path bytes)
  | .error part => do
    file (Filing.write path [])
    throw (.unencodable part)

end Task

end ChainReplay
