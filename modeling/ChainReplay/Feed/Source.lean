import ChainReplay.Binary64.Arithmetic
import ChainReplay.Disk
import ChainReplay.Text.Blank

/-! The text of a feed as it is taken in, piece by piece. A file is decoded in blocks, so of a file
that is no text up to its end only what lies in front of the first faulty block can be read. -/

namespace ChainReplay.Feed

/-- The characters of a file that can be read, and whether an undecodable byte follows them. -/
structure Source where
  chars : List Char
  broken : Bool

/-- The characters in the first bytes of a file. A carriage return at their end is kept back, as a
newline might follow it. -/
def charsWithin (content : Bytes) (limit : Nat) : List Char :=
  let chars := (Text.chars? (Utf8.leadingWithin limit (content.take limit))).getD []
  Disk.plainLines (if chars.getLast? = some '\r' then chars.dropLast else chars)

def blockSize : Nat := 8192

/-- The size of a block that is to give so many characters, if each takes as many bytes as those of
the last block did. -/
def blockFor (bytes chars missing : Nat) : Nat :=
  let ratio := Binary64.ofFraction false bytes chars
  let estimate := ((ratio.mul (Binary64.ofScaled missing 0)).truncate?.getD 0).toNat
  max blockSize (if chars = 0 || bytes ≤ chars then missing else estimate)

/-- The end of the last block before the one with the byte `fault`, when pieces of `size` characters
are asked for. The first `reached` bytes have been decoded; the last block turned `bytes` into
`chars`. -/
def reach (content : Bytes) (fault size : Nat) : Nat → Nat → Nat → Nat → Nat
  | 0, reached, _, _ => reached
  | n + 1, reached, bytes, chars =>
    let known := (charsWithin content reached).length
    let next := reached + blockFor bytes chars (size - known % size)
    if fault < next then reached
    else
      let gained := (charsWithin content next).length - known
      reach content fault size n next (next - reached) gained

def blocksBefore (fault : Nat) : Nat := fault / blockSize * blockSize

/-- The characters in front of a fault, as far as the bytes up to `limit` are decoded before it. -/
def Source.upTo (content : Bytes) (fault : Utf8.Fault) (limit : Nat) : Source :=
  ⟨charsWithin content (if fault.cut then fault.known else limit), true⟩

def Source.whole (t : Text) : Source := ⟨Disk.plainLines ((Text.chars? t).getD []), false⟩

def Source.ofBytes (content : Bytes) : Source :=
  match Utf8.decode content with
  | .ok t => .whole t
  | .error fault => .upTo content fault (blocksBefore fault.known)

def isBlank (c : Char) : Bool := Text.isBlank (.ofChar c)

/-- The number of bytes that are decoded up to the first character that is not blank. -/
def leadingBlocks (content : Bytes) (fault : Nat) : Nat :=
  let ends := (List.range (fault / blockSize)).map fun n => (n + 1) * blockSize
  (ends.find? fun limit => (charsWithin content limit).any (!isBlank ·)).getD 0

/-- The text as it is read in pieces. The beginning has been read once before, to tell arrays from
lines. -/
def Source.inPieces (content : Bytes) (size : Int) : Source :=
  match Utf8.decode content with
  | .ok t => .whole t
  | .error fault =>
    let seen := leadingBlocks content fault.known
    let before := (charsWithin content (seen - blockSize)).length
    let chars := (charsWithin content seen).length - before
    .upTo content fault
      (reach content fault.known size.toNat (fault.known / blockSize + 1) 0 blockSize chars)

def Source.next (s : Source) (size : Int) : Except Failure (List Char × Source) :=
  let count := if size < 0 then s.chars.length else size.toNat
  if s.broken && (size < 0 || s.chars.length < count) then .error .undecodable
  else .ok (s.chars.take count, { s with chars := s.chars.drop count })

end ChainReplay.Feed
