import ChainReplay.Bytes.Basic

/-! Base64. Reading asks for the exact padding of a last group that is not full, and lets unused
bits of its last digit be anything; behind full groups any number of padding characters may stand.
-/

namespace ChainReplay.Base64

def alphabet : List Char :=
  "ABCDEFGHIJKLMNOPQRSTUVWXYZabcdefghijklmnopqrstuvwxyz0123456789+/".toList

def digit (n : Nat) : Char := (alphabet[n]?).getD '/'

def encode : Bytes → List Char
  | [] => []
  | [a] => [digit (a.toNat / 4), digit (a.toNat % 4 * 16), '=', '=']
  | [a, b] =>
    [digit (a.toNat / 4), digit (a.toNat % 4 * 16 + b.toNat / 16), digit (b.toNat % 16 * 4), '=']
  | a :: b :: c :: rest =>
    digit (a.toNat / 4) :: digit (a.toNat % 4 * 16 + b.toNat / 16)
      :: digit (b.toNat % 16 * 4 + c.toNat / 64) :: digit (c.toNat % 64) :: encode rest

def value? (c : Char) : Option Nat :=
  if 'A' ≤ c && c ≤ 'Z' then some (c.toNat - 65)
  else if 'a' ≤ c && c ≤ 'z' then some (c.toNat - 71)
  else if '0' ≤ c && c ≤ '9' then some (c.toNat + 4)
  else if c = '+' then some 62
  else if c = '/' then some 63
  else none

/-- Reads groups of four digits, and at the end the padding that the last group asks for. -/
def decodeDigits : List Nat → (pads : Nat) → Option Bytes
  | [], _ => some []
  | [a, b], 2 => some [.ofNat (a * 4 + b / 16)]
  | [a, b, c], 1 => some [.ofNat (a * 4 + b / 16), .ofNat (b * 16 + c / 4)]
  | a :: b :: c :: d :: rest, pads =>
    (decodeDigits rest pads).map fun tail =>
      .ofNat (a * 4 + b / 16) :: .ofNat (b * 16 + c / 4) :: .ofNat (c * 64 + d) :: tail
  | _, _ => none

def decode? (cs : List Char) : Option Bytes :=
  let data := cs.takeWhile (· != '=')
  let pads := cs.drop data.length
  if pads.all (· = '=') && (pads.isEmpty || !data.isEmpty) then
    (data.mapM value?).bind (decodeDigits · pads.length)
  else none

end ChainReplay.Base64
