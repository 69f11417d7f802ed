import ChainReplay.Bytes.Basic
import ChainReplay.Text.Unprintable

/-! The quoted form of a text, as messages show it: single quotes unless the text holds single
quotes only, and escapes for what is not printable. -/

namespace ChainReplay.Text

def escaped (quote : CodePoint) (c : CodePoint) : Text :=
  if c = quote || c = .ofChar '\\' then [.ofChar '\\', c]
  else if c.val = 10 then "\\n"
  else if c.val = 13 then "\\r"
  else if c.val = 9 then "\\t"
  else if isPrintable c then [c]
  else if c.val < 0x100 then "\\x" ++ padded 16 2 c.val
  else if c.val < 0x10000 then "\\u" ++ padded 16 4 c.val
  else "\\U" ++ padded 16 8 c.val

def quoted (t : Text) : Text :=
  let single := CodePoint.ofChar '\''
  let double := CodePoint.ofChar '"'
  let quote := if t.contains single && !t.contains double then double else single
  quote :: t.flatMap (escaped quote) ++ [quote]

end ChainReplay.Text

namespace ChainReplay.Bytes

def escaped (quote : Char) (b : UInt8) : Text :=
  let c := Char.ofNat b.toNat
  if c = quote || c = '\\' then Text.ofChars ['\\', c]
  else if c = '\n' then "\\n"
  else if c = '\r' then "\\r"
  else if c = '\t' then "\\t"
  else if 32 ≤ b.toNat && b.toNat < 127 then Text.ofChars [c]
  else "\\x" ++ Text.padded 16 2 b.toNat

def quoted (bs : Bytes) : Text :=
  let quote := if bs.contains 39 && !bs.contains 34 then '"' else '\''
  Text.ofChars ['b', quote] ++ bs.flatMap (escaped quote) ++ Text.ofChars [quote]

end ChainReplay.Bytes
