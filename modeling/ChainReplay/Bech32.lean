import ChainReplay.Text.LowerCase
import ChainReplay.Bytes.Basic

/-! Segregated witness addresses: a human-readable part, a separator, and data in groups of five
bits that end in a checksum. All witness versions use the same checksum constant, and the length
of the whole is not limited. -/

namespace ChainReplay.Bech32

def charset : List Char := "qpzry9x8gf2tvdw0s3jn54khce6mua7l".toList

def generators : List Nat := [0x3B6A57B2, 0x26508E6D, 0x1EA119FA, 0x3D4233DD, 0x2A1462B3]

def polymodStep (sum value : Nat) : Nat :=
  let top := sum / 2 ^ 25
  let shifted := (sum % 2 ^ 25 * 32) ^^^ value
  (generators.zipIdx).foldl (fun acc (g, i) => if top.testBit i then acc ^^^ g else acc) shifted

def polymod (values : List Nat) : Nat := values.foldl polymodStep 1

def expandHrp (hrp : Text) : List Nat :=
  hrp.map (·.val / 32) ++ 0 :: hrp.map (·.val % 32)

def checksum (hrp : Text) (data : List Nat) : List Nat :=
  let sum := polymod (expandHrp hrp ++ data ++ List.replicate 6 0) ^^^ 1
  [5, 4, 3, 2, 1, 0].map fun i => sum / 32 ^ i % 32

def verifies (hrp : Text) (data : List Nat) : Bool := polymod (expandHrp hrp ++ data) = 1

/-- Regroups bits, first bit first. `pending` holds `bits` bits that do not fill a group yet. -/
def regroup (fromBits toBits : Nat) (pending bits : Nat) : List Nat → List Nat × Nat × Nat
  | [] => ([], pending, bits)
  | value :: rest =>
    let all := pending * 2 ^ fromBits + value
    let count := bits + fromBits
    let groups := (List.range (count / toBits)).map fun i =>
      all / 2 ^ (count - (i + 1) * toBits) % 2 ^ toBits
    let left := count % toBits
    let (tail, pending, bits) := regroup fromBits toBits (all % 2 ^ left) left rest
    (groups ++ tail, pending, bits)

def groupsOfBytes (bs : Bytes) : List Nat :=
  let (groups, pending, bits) := regroup 8 5 0 0 (bs.map (·.toNat))
  if bits = 0 then groups else groups ++ [pending * 2 ^ (5 - bits)]

def bytesOfGroups? (groups : List Nat) : Option Bytes :=
  let (values, pending, bits) := regroup 5 8 0 0 groups
  if bits < 5 && pending = 0 then some (values.map .ofNat) else none

def isAllowed (c : CodePoint) : Bool := 33 ≤ c.val && c.val ≤ 126

def isUpper (c : CodePoint) : Bool := 65 ≤ c.val && c.val ≤ 90

def isLower (c : CodePoint) : Bool := 97 ≤ c.val && c.val ≤ 122

def digitValue? (c : CodePoint) : Option Nat :=
  charset.findIdx? fun d => CodePoint.ofChar d = c

def splitLast (t : Text) : Option (Text × Text) :=
  let tail := (t.reverse.takeWhile (· != .ofChar '1')).reverse
  if tail.length < t.length then some (t.take (t.length - tail.length - 1), tail) else none

def split? (t : Text) : Option (Text × List Nat) :=
  if !t.all isAllowed || (t.any isUpper && t.any isLower) then none
  else match splitLast (Text.toLower t) with
    | none => none
    | some (hrp, tail) =>
      if hrp.isEmpty || 83 < hrp.length || tail.length < 6 then none
      else match tail.mapM digitValue? with
        | none => none
        | some data =>
          if verifies hrp data then some (hrp, data.take (data.length - 6)) else none

def decode? (hrp t : Text) : Option (Nat × Bytes) :=
  match split? t with
  | some (found, version :: groups) =>
    if found ≠ hrp then none
    else match bytesOfGroups? groups with
      | none => none
      | some program =>
        if program.length < 2 || 40 < program.length || 16 < version then none
        else if version = 0 && program.length ≠ 20 && program.length ≠ 32 then none
        else some (version, program)
  | _ => none

def spell (hrp : Text) (data : List Nat) : Text :=
  hrp ++ "1" ++ Text.ofChars ((data ++ checksum hrp data).map fun d => (charset[d]?).getD 'q')

def encode? (hrp : Text) (version : Nat) (program : Bytes) : Option Text :=
  let t := spell hrp (version :: groupsOfBytes program)
  if (decode? hrp t).isSome then some t else none

end ChainReplay.Bech32
