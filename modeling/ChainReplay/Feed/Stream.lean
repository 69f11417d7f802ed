import ChainReplay.Feed.Record
import ChainReplay.Feed.Source
import ChainReplay.Json.Reader

/-! Reading a feed: an array of records, taken in element by element from pieces of the file, or one
record on each line. -/

namespace ChainReplay.Feed

abbrev Outcome := List StateRecord × Option Failure

def Outcome.cons (r : StateRecord) (o : Outcome) : Outcome := (r :: o.1, o.2)

def stopped (f : Failure) : Outcome := ([], some f)

inductive Phase where
  | opening
  | first
  | element
  | separator
  deriving DecidableEq

structure Window where
  buffer : List Char
  source : Source
  ended : Bool

def Window.refill (w : Window) (size : Int) : Except Failure Window :=
  match w.source.next size with
  | .error f => .error f
  | .ok (piece, source) => .ok ⟨w.buffer ++ piece, source, piece.isEmpty⟩

def closeArray (feed : Path) (size : Int) : Nat → List Char → Source → Outcome
  | 0, _, _ => ([], none)
  | n + 1, rest, source =>
    if !(Json.skipSpace rest).isEmpty then stopped (.format (.badArray feed .extraData))
    else match source.next size with
      | .error f => stopped f
      | .ok ([], _) => ([], none)
      | .ok (piece, source) => closeArray feed size n piece source

/-- An element that ends with the characters taken in may go on, so more are taken in first. -/
def readArray (feed : Path) (size : Int) : Nat → Phase → Window → Outcome
  | 0, _, _ => ([], none)
  | n + 1, phase, w =>
    let fault (f : ArrayFault) := stopped (.format (.badArray feed f))
    let more (buffer : List Char) (reason : ArrayFault) : Outcome :=
      if w.ended then fault reason
      else match ({ w with buffer } : Window).refill size with
        | .error f => stopped f
        | .ok w => readArray feed size n phase w
    match Json.skipSpace w.buffer with
    | [] => more [] .endOfArray
    | c :: rest =>
      if phase = .opening then
        if c = '[' then readArray feed size n .first { w with buffer := rest }
        else fault (.noBracket c)
      else if c = ']' && phase ≠ .element then
        closeArray feed size (w.source.chars.length + 2) rest w.source
      else if phase = .separator then
        if c = ',' then readArray feed size n .element { w with buffer := rest }
        else fault (.noSeparator c)
      else match Json.readPrefix (c :: rest) with
        | .error .malformed => more (c :: rest) .badValue
        | .error e => stopped (e.failure .wrongValue)
        | .ok (document, after) =>
          if after.isEmpty && !w.ended then more (c :: rest) .badValue
          else match StateRecord.ofJson document with
            | .error f => stopped f
            | .ok r => .cons r (readArray feed size n .separator { w with buffer := after })

def splitLine (cs : List Char) : List Char × Option (List Char) :=
  let line := cs.takeWhile (· != '\n')
  match cs.drop line.length with
  | [] => (line, none)
  | _ :: rest => (line, some rest)

/-- One record on each line; blank lines are counted but hold none. -/
def readLines (feed : Path) (broken : Bool) : Nat → Nat → List Char → Outcome
  | 0, _, _ => ([], none)
  | n + 1, number, cs =>
    let record (line : List Char) (following : Outcome) : Outcome :=
      if (Text.ofChars line).all Text.isBlank then following
      else match Json.parse line with
        | .error e => stopped (e.failure (.format (.badLine feed number)))
        | .ok document =>
          match StateRecord.ofJson document with
          | .error f => stopped f
          | .ok r => .cons r following
    match splitLine cs with
    | (line, some rest) => record line (readLines feed broken n (number + 1) rest)
    | (line, none) => if broken then stopped .undecodable else record line ([], none)

def defaultPiece : Int := 65536

/-- The records of a feed. The first character that is not blank tells the two forms apart. -/
def read (feed : Path) (content : Bytes) (size : Int) : Outcome :=
  let lines := Source.ofBytes content
  match lines.chars.dropWhile isBlank with
  | [] => if lines.broken then stopped .undecodable else ([], none)
  | c :: _ =>
    if c = '[' then
      let source := Source.inPieces content size
      readArray feed size (2 * source.chars.length + 4) .opening ⟨[], source, false⟩
    else readLines feed lines.broken (lines.chars.length + 1) 1 lines.chars

def readFrom (d : Disk) (feed : Path) (size : Int) : Outcome :=
  match d.readOr feed (.format (.unreadableFeed feed)) with
  | .error f => stopped f
  | .ok content => read feed content size

def load (d : Disk) (feed : Path) (height : Int) : Except Failure Storage :=
  match readFrom d feed defaultPiece with
  | (_, some f) => .error f
  | (records, none) => .ok (materialize records height)

end ChainReplay.Feed
