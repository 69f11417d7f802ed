import ChainReplay.Wire.Emission
import ChainReplay.Wire.Reader

/-! Wire formats: a description of a message, the values it carries, and a writer and a reader
interpreted from it. -/

namespace ChainReplay

inductive Format where
  | unsigned (width : Nat)
  | signed64
  | boolean
  | raw (length : Int)
  | blob
  | text
  | looseText
  | address
  | optional (f : Format)
  | array (f : Format)
  | counted (width : Nat) (f : Format)
  | pair (f g : Format)

namespace Format

/-- The values a writer accepts. Numbers may lie outside the width, raw bytes may have any length,
and a loose text may be any document; only those inside can be written and read back. -/
def Value : Format → Type
  | unsigned _ => Int
  | signed64 => Int
  | boolean => Bool
  | raw _ => Bytes
  | blob => Bytes
  | text => Text
  | looseText => Json
  | address => Address
  | optional f => Option f.Value
  | array f => List f.Value
  | counted _ f => List f.Value
  | pair f g => f.Value × g.Value

def emit : (f : Format) → f.Value → Emission
  | unsigned width, n => Emission.unsigned width n
  | signed64, n => Emission.signed64 n
  | boolean, b => Emission.boolean b
  | raw _, bs => Emission.written bs
  | blob, bs => Emission.blob bs
  | text, t => Emission.text t
  | looseText, j =>
    match j with
    | .text t => Emission.text t
    | _ => Emission.failed .wrongMember
  | address, a => Emission.written a.bytes
  | optional f, v =>
    match v with
    | none => Emission.boolean false
    | some v => (Emission.boolean true).andThen (f.emit v)
  | array f, vs => (Emission.arrayCount vs.length).andThen (Emission.all f.emit vs)
  | counted width f, vs => (Emission.unsigned width vs.length).andThen (Emission.all f.emit vs)
  | pair f g, v => (f.emit v.1).andThen (g.emit v.2)

def read : (f : Format) → Read f.Value
  | unsigned width => Int.ofNat <$> Reader.unsigned width
  | signed64 => Reader.signed64
  | boolean => Reader.boolean
  | raw length => Reader.bytesOf length
  | blob => Reader.blob
  | text => Reader.text
  | looseText => Json.text <$> Reader.text
  | address => Reader.address
  | optional f => do if ← Reader.boolean then some <$> f.read else return none
  | array f => do Reader.many f.read (← Reader.unsigned 2)
  | counted width f => do Reader.many f.read (← Reader.unsigned width)
  | pair f g => do
    let v ← f.read
    let w ← g.read
    return (v, w)

def encode (f : Format) (v : f.Value) : Except Failure Bytes := (f.emit v).result

def decode (f : Format) (bs : Bytes) : Except Failure f.Value := Reader.run f.read bs

def u16 : Format := unsigned 2

def u32 : Format := unsigned 4

def u64 : Format := unsigned 8

def u256 : Format := unsigned 32

def tuple : Format := counted 4 u256

end Format

end ChainReplay
