import ChainReplay.CommandLine.Arguments
import ChainReplay.Disk
import ChainReplay.Settings

/-! The commands and their options. Options are checked in the order in which they are given, and
before the words. -/

namespace ChainReplay

inductive ReportFormat where
  | json
  | markdown

structure ReplayRequest where
  plan : Path
  height : Int
  blocks : Int
  settings : Settings.Partial
  ignoreUnknown : Bool
  allowReverts : Bool
  keepStates : Bool
  output : Option Text
  format : ReportFormat

structure SnapshotRequest where
  feed : Text
  height : Int
  cacheDir : Option Path
  cached : Bool
  output : Option Text

inductive Command where
  | replay (request : ReplayRequest)
  | snapshot (request : SnapshotRequest)
  | block (file : Text) (details : Bool)
  | selector (names : List Text)
  | version
  | help

/-- Why arguments are no command: they are malformed, or a name in them cannot be looked up. -/
inductive Mistake where
  | malformed
  | unusable (reason : Failure)

namespace Command

def orMalformed {α : Type} : Option α → Except Mistake α
  | some a => .ok a
  | none => .error .malformed

def require (condition : Bool) : Except Mistake Unit :=
  if condition then .ok () else .error .malformed

def kindOfName (d : Disk) (t : Text) : Except Mistake (Option Disk.Kind) :=
  (d.kindOfName t).mapError .unusable

/-- Checks one value. The place to write to may be anything that can be a name. -/
def checkValue (d : Disk) (v : Text) : Operand → Except Mistake Unit
  | .nothing | .text => .ok ()
  | .integer least => do
    let n ← orMalformed (Numeral.integer? v)
    require (least.all (· ≤ n))
  | .choice among | .choices among => require (among.contains v)
  | .choiceInAnyCase among => require (among.contains v.toLower)
  | .directory => do require ((← kindOfName d v) ≠ some .file)
  | .place => do let _ ← kindOfName d v

def checkOption (d : Disk) (a : Arguments) (o : CommandOption) : Except Mistake Unit :=
  match o.operand with
  | .choices among => (a.values o.name).forM (checkValue d · (.choices among))
  | operand => (a.value? o.name).toList.forM (checkValue d · operand)

def helpOption : CommandOption := .flag "help"

def outputOption : CommandOption := ⟨"output", some 'o', .place⟩

def fileOf (d : Disk) (a : Arguments) : Except Mistake Text := do
  let t ← orMalformed a.words.head?
  require ((← kindOfName d t) = some .file)
  return t

def nonempty? (a : Arguments) (name : Text) : Option Text :=
  (a.value? name).filter (!·.isEmpty)

def directory? (a : Arguments) (name : Text) : Option Path := (nonempty? a name).map Path.ofText

def integer? (a : Arguments) (name : Text) : Option Int := (a.value? name).bind Numeral.integer?

def fileAndHeight (d : Disk) (a : Arguments) : Except Mistake (Text × Int) := do
  let file ← fileOf d a
  let height ← orMalformed (integer? a "height")
  require (a.words.length = 1)
  return (file, height)

def traces : List Text := ["gas", "pointers", "calls", "deployments"]

def settings (a : Arguments) : Settings.Partial :=
  let trace (name : Text) : Option Bool :=
    if (a.values "trace").contains name then some true else none
  { Settings.Partial.none with
    network := a.value? "network"
    blockDir := directory? a "block-dir", cacheDir := directory? a "cache-dir"
    engine := a.value? "engine"
    traceGas := trace "gas", tracePointers := trace "pointers"
    traceCalls := trace "calls", traceDeployments := trace "deployments" }

def heightOption : CommandOption := .taking (.integer none) "height"

def cacheDirOption : CommandOption := .taking .directory "cache-dir"

def replayOptions : List CommandOption :=
  [heightOption, .taking (.integer (some 1)) "blocks", .taking .text "engine",
    .taking (.choice ["mainnet", "regtest", "testnet"]) "network", .taking .directory "block-dir",
    cacheDirOption, .flag "ignore-unknown-contracts", .flag "allow-recorded-reverts",
    .flag "keep-new-states", .taking (.choices traces) "trace", outputOption,
    .taking (.choice ["json", "markdown"]) "format", helpOption]

def ofReplay (d : Disk) (a : Arguments) : Except Mistake Command := do
  let (plan, height) ← fileAndHeight d a
  return .replay {
    plan := Path.ofText plan, height, blocks := (integer? a "blocks").getD 1
    settings := settings a
    ignoreUnknown := a.isSet "ignore-unknown-contracts"
    allowReverts := a.isSet "allow-recorded-reverts"
    keepStates := a.isSet "keep-new-states", output := nonempty? a "output"
    format := if a.value? "format" = some "json" then .json else .markdown }

def snapshotOptions : List CommandOption :=
  [heightOption, cacheDirOption, .flag "no-cache", outputOption, helpOption]

def ofSnapshot (d : Disk) (a : Arguments) : Except Mistake Command := do
  let (feed, height) ← fileAndHeight d a
  return .snapshot {
    feed, height, cacheDir := directory? a "cache-dir", cached := !a.isSet "no-cache"
    output := nonempty? a "output" }

def blockOptions : List CommandOption := [.flag "details", helpOption]

def ofBlock (d : Disk) (a : Arguments) : Except Mistake Command := do
  let file ← fileOf d a
  require (a.words.length = 1)
  return .block file (a.isSet "details")

def ofSelector (a : Arguments) : Except Mistake Command := do
  require (!a.words.isEmpty)
  return .selector a.words

/-- Reads the arguments of one command; a question for help comes before mistakes in values. -/
def withOptions (d : Disk) (known : List CommandOption) (arguments : List Text)
    (read : Arguments → Except Mistake Command) : Except Mistake Command := do
  let a ← orMalformed (Arguments.parse known true arguments)
  if a.isSet "help" then return .help
  (a.given known).forM (checkOption d a)
  read a

def ofName (d : Disk) (name : Text) (arguments : List Text) : Except Mistake Command :=
  if name = "replay" then withOptions d replayOptions arguments (ofReplay d)
  else if name = "snapshot" then withOptions d snapshotOptions arguments (ofSnapshot d)
  else if name = "block" then withOptions d blockOptions arguments (ofBlock d)
  else if name = "selector" then withOptions d [helpOption] arguments ofSelector
  else .error .malformed

def mainOptions : List CommandOption :=
  [.flag "version", helpOption,
    .taking (.choiceInAnyCase ["debug", "info", "warning", "error"]) "log-level"]

def question? (a : Arguments) : Option Command :=
  if a.isSet "version" then some .version
  else if a.isSet "help" then some .help
  else none

/-- The command that the arguments ask for. A word in the place of its name that looks like an
option, which only two lone dashes let through, can still be a question. -/
def ofArguments (d : Disk) (arguments : List Text) : Except Mistake Command := do
  let a ← orMalformed (Arguments.parse mainOptions false arguments)
  if let some c := question? a then return c
  (a.given mainOptions).forM (checkOption d a)
  match a.words with
  | [] => throw .malformed
  | name :: rest =>
    if Arguments.isOption name then
      orMalformed ((Arguments.parse mainOptions false a.words).bind question?)
    else ofName d name rest

end Command

end ChainReplay
