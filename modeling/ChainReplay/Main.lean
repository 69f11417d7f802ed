import ChainReplay.CommandLine.Run
import Std.Time.Format

/-! The command line as a program: it reads the working directory, carries out a command and writes
the files that have changed. -/

namespace ChainReplay

/-- Engines that `replay` finds by name. An executable that links an engine adds it here. -/
def engines : Catalog := []

partial def readEntry (above : List Text) (d : Disk) (entry : IO.FS.DirEntry) : IO Disk := do
  if entry.fileName.startsWith "." then return d
  let key := above ++ [Text.ofString entry.fileName]
  if ← entry.path.isDir then
    (← entry.path.readDir).foldlM (readEntry key) { d with directories := d.directories ++ [key] }
  else
    let content ← IO.FS.readBinFile entry.path
    return { d with files := Table.insert key content.toList d.files }

def readDisk : IO Disk := do
  (← (← IO.currentDir).readDir).foldlM (readEntry []) Disk.empty

def writeEntry (before : Disk) (entry : List Text × Bytes) : IO Unit := do
  let (key, content) := entry
  if before.files.find? key = some content then return
  let below := fun (key : List Text) => (Text.join "/" key).toString
  if 1 < key.length then IO.FS.createDirAll (below key.dropLast)
  IO.FS.writeBinFile (below key) ⟨content.toArray⟩

def readEnvironment : IO Settings.Environment := do
  let values ← Settings.variableNames.mapM fun name => do
    return (name, (← IO.getEnv name.toString).map Text.ofString)
  return values.filterMap fun (name, value) => value.map (name, ·)

def now : IO Text := do
  let time := Std.Time.DateTime.ofTimestampWithZone (← Std.Time.Timestamp.now) Std.Time.TimeZone.UTC
  return Text.ofString time.toISO8601String

end ChainReplay

open ChainReplay in
def main (arguments : List String) : IO UInt32 := do
  let disk ← readDisk
  let found : Surroundings := ⟨engines, ← readEnvironment, ← now, disk⟩
  let outcome := Command.runArguments found (arguments.map Text.ofString)
  for entry in outcome.disk.files do writeEntry disk entry
  IO.print outcome.text.toString
  return UInt32.ofNat outcome.exit.code
