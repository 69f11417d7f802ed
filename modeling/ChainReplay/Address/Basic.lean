import ChainReplay.Bytes.Basic
import ChainReplay.Text.Basic

/-! Addresses: thirty-two bytes, ordered as big-endian numbers. -/

namespace ChainReplay

def Bytes.hex (bs : Bytes) : Text := Text.ofChars bs.hexChars

structure Address where
  bytes : Bytes
  length_eq : bytes.length = 32
  deriving DecidableEq

namespace Address

def zero : Address := ⟨Bytes.zeros 32, by simp [Bytes.zeros]⟩

def text (a : Address) : Text := "0x" ++ a.bytes.hex

def shown (a : Address) : Text := "Address(" ++ a.text ++ ")"

def isBigger (a b : Address) : Bool := decide (b.bytes.toNat < a.bytes.toNat)

def isLegacy (a : Address) : Bool := a.bytes.take 12 = Bytes.zeros 12

def sorted (a b : Address) : Address × Address := if a.isBigger b then (b, a) else (a, b)

end Address

end ChainReplay
