import ChainReplay.Selector
import ChainReplay.Text.Unprintable
import ChainReplay.Wire.Reader

/-! The reason of a recorded failure, in readable form. -/

namespace ChainReplay.Transaction

def isReason (revert : Bytes) : Bool :=
  4 ≤ revert.length && selector? "Error(string)" = some (Bytes.toNat (revert.take 4))

def revertText (revert : Bytes) : Text :=
  let marked := if isReason revert then (Reader.run Reader.text (revert.drop 4)).toOption else none
  match marked with
  | some t => t
  | none =>
    match Utf8.decode? revert with
    | some (c :: t) =>
      if (c :: t).all Text.isPrintable then c :: t else "0x" ++ revert.hex
    | _ => "0x" ++ revert.hex

end ChainReplay.Transaction
