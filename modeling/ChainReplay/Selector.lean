import ChainReplay.Sha256
import ChainReplay.Text.Utf8
import ChainReplay.Wire.Emission

/-! Method selectors: the first four bytes of the digest of a method's name. -/

namespace ChainReplay

def selectorOf (name : Bytes) : Nat := Bytes.toNat ((Sha256.digest name).take 4)

def selector? (name : Text) : Option Nat := (Utf8.encode? name).map selectorOf

def selector (name : Text) : Except Failure Nat :=
  ((Utf8.encode name).mapError .unencodable).map selectorOf

def calldata (method : Text) (payload : Bytes) : Except Failure Bytes := do
  return Bytes.ofNat 4 (← selector method) ++ payload

end ChainReplay
