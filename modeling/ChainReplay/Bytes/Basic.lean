import ChainReplay.Power

/-! Byte strings: big-endian numbers and hexadecimal text. -/

namespace ChainReplay

abbrev Bytes := List UInt8

namespace Bytes

def zeros (n : Nat) : Bytes := List.replicate n 0

def ofNat : (width n : Nat) → Bytes
  | 0, _ => []
  | width + 1, n => ofNat width (n / 256) ++ [UInt8.ofNat n]

def toNat (bs : Bytes) : Nat := bs.foldl (fun n b => n * 256 + b.toNat) 0

def toInt (bs : Bytes) : Int :=
  if 2 * bs.toNat < 256 ^ bs.length then bs.toNat else bs.toNat - 256 ^ bs.length

def hexDigit (n : Nat) : Char := Nat.digitChar n

def hexChars (bs : Bytes) : List Char :=
  bs.flatMap fun b => [hexDigit (b.toNat / 16), hexDigit (b.toNat % 16)]

def hexValue? (c : Char) : Option Nat :=
  if '0' ≤ c && c ≤ '9' then some (c.toNat - 48)
  else if 'a' ≤ c && c ≤ 'f' then some (c.toNat - 87)
  else if 'A' ≤ c && c ≤ 'F' then some (c.toNat - 55)
  else none

def isAsciiBlank (c : Char) : Bool := c = ' ' || ('\t' ≤ c && c ≤ '\r')

def ofHex? : List Char → Option Bytes
  | [] => some []
  | [c] => if isAsciiBlank c then some [] else none
  | c :: d :: rest =>
    if isAsciiBlank c then ofHex? (d :: rest)
    else do
      let high ← hexValue? c
      let low ← hexValue? d
      return UInt8.ofNat (high * 16 + low) :: (← ofHex? rest)

end Bytes

end ChainReplay
