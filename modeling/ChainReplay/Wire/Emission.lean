import ChainReplay.Failure.Basic
import ChainReplay.Text.Utf8

/-! What a writer has produced so far. A writer that fails leaves behind what it had written. -/

namespace ChainReplay

structure Emission where
  bytes : Bytes
  failure : Option Failure

namespace Emission

def empty : Emission := ⟨[], none⟩

def written (bs : Bytes) : Emission := ⟨bs, none⟩

def failed (f : Failure) : Emission := ⟨[], some f⟩

def andThen (a b : Emission) : Emission :=
  match a.failure with
  | none => ⟨a.bytes ++ b.bytes, b.failure⟩
  | some _ => a

def all {α : Type} (emit : α → Emission) : List α → Emission
  | [] => empty
  | a :: as => (emit a).andThen (all emit as)

def result (e : Emission) : Except Failure Bytes :=
  match e.failure with
  | none => .ok e.bytes
  | some f => .error f

def widthName (width : Nat) : Text := "u" ++ .ofNat (8 * width)

def unsigned (width : Nat) (n : Int) : Emission :=
  if 0 ≤ n ∧ n < 256 ^ width then written (Bytes.ofNat width n.toNat)
  else failed (.codec (.outOfRange (widthName width) n))

def signed64 (n : Int) : Emission :=
  if -2 ^ 63 ≤ n ∧ n < 2 ^ 63 then written (Bytes.ofNat 8 (n % 2 ^ 64).toNat)
  else failed (.codec (.outOfRange "i64" n))

def boolean (b : Bool) : Emission := written [if b then 1 else 0]

def blob (bs : Bytes) : Emission := (unsigned 4 bs.length).andThen (written bs)

def text (t : Text) : Emission :=
  match Utf8.encode t with
  | .error part => failed (.unencodable part)
  | .ok bs => blob bs

def arrayCount (count : Nat) : Emission :=
  if 65535 < count then failed (.codec (.arrayTooLong count)) else unsigned 2 count

end Emission

end ChainReplay
