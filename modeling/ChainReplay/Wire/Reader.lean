import ChainReplay.Failure.Basic
import ChainReplay.Text.Utf8

/-! Reading a byte string from the front. A reader that fails stays where it stopped. -/

namespace ChainReplay

structure Reader where
  offset : Nat
  rest : Bytes

abbrev Read := ExceptT Failure (StateM Reader)

namespace Reader

def ofBytes (bs : Bytes) : Reader := ⟨0, bs⟩

def bytes (length : Nat) : Read Bytes := do
  let r ← get
  if r.rest.length < length then
    throw (.codec (.endOfBuffer length r.offset r.rest.length))
  set (⟨r.offset + length, r.rest.drop length⟩ : Reader)
  return r.rest.take length

/-- Like `bytes`, for a length that may be negative. -/
def bytesOf (length : Int) : Read Bytes :=
  if length < 0 then throw (.codec .negativeLength) else bytes length.toNat

def unsigned (width : Nat) : Read Nat := Bytes.toNat <$> bytes width

def signed64 : Read Int := Bytes.toInt <$> bytes 8

def boolean : Read Bool := do
  let n ← unsigned 1
  if 1 < n then throw (.codec (.badBoolean n))
  return n = 1

def blob : Read Bytes := do bytes (← unsigned 4)

def text : Read Text := do
  match Utf8.decode (← blob) with
  | .ok t => return t
  | .error fault => throw (.codec (.undecodableText fault))

def address : Read Address := do
  let bs ← bytes 32
  if h : bs.length = 32 then return ⟨bs, h⟩
  else throw (.codec (.addressLength bs.length))

def many {α : Type} (read : Read α) : Nat → Read (List α)
  | 0 => return []
  | n + 1 => do
    let a ← read
    let as ← many read n
    return a :: as

def run {α : Type} (read : Read α) (bs : Bytes) : Except Failure α :=
  (ExceptT.run read |>.run (ofBytes bs)).1

def runRest {α : Type} (read : Read α) (bs : Bytes) : Except Failure (α × Bytes) :=
  match ExceptT.run read |>.run (ofBytes bs) with
  | (.ok a, r) => .ok (a, r.rest)
  | (.error f, _) => .error f

end Reader

end ChainReplay
