import ChainReplay.Text.Basic
import ChainReplay.Bytes.Basic

/-! The byte encoding of texts. Reading is strict: no overlong forms, no surrogates, nothing above
the last code point. -/

namespace ChainReplay.Utf8

def encodeOne (c : CodePoint) : Bytes :=
  let n := c.val
  if n < 0x80 then [.ofNat n]
  else if n < 0x800 then [.ofNat (0xC0 + n / 64), .ofNat (0x80 + n % 64)]
  else if n < 0x10000 then
    [.ofNat (0xE0 + n / 4096), .ofNat (0x80 + n / 64 % 64), .ofNat (0x80 + n % 64)]
  else
    [.ofNat (0xF0 + n / 262144), .ofNat (0x80 + n / 4096 % 64), .ofNat (0x80 + n / 64 % 64),
      .ofNat (0x80 + n % 64)]

/-- Surrogates that stand alone cannot be written: where the first row of them starts. -/
structure Unwritable where
  start : Nat
  row : Text
  deriving DecidableEq

def encodeFrom (start : Nat) : Text → Except Unwritable Bytes
  | [] => .ok []
  | c :: rest =>
    if c.isSurrogate then .error ⟨start, c :: rest.takeWhile (·.isSurrogate)⟩
    else (encodeFrom (start + 1) rest).map (encodeOne c ++ ·)

def encode (t : Text) : Except Unwritable Bytes := encodeFrom 0 t

def encode? (t : Text) : Option Bytes := (encode t).toOption

/-- What stands at the front of a byte string: a code point, the longest start of one that cannot
be continued, or a start that only the end of the input leaves open. -/
inductive Front where
  | scalar (c : CodePoint) (width : Nat)
  | wrong (width : Nat)
  | cut

def isTail (b : UInt8) : Bool := 0x80 ≤ b && b < 0xC0

def tails (b : UInt8) : Option (Nat × UInt8 × UInt8) :=
  if 0xC2 ≤ b && b < 0xE0 then some (1, 0x80, 0xBF)
  else if b = 0xE0 then some (2, 0xA0, 0xBF)
  else if b = 0xED then some (2, 0x80, 0x9F)
  else if 0xE1 ≤ b && b < 0xF0 then some (2, 0x80, 0xBF)
  else if b = 0xF0 then some (3, 0x90, 0xBF)
  else if b = 0xF4 then some (3, 0x80, 0x8F)
  else if 0xF1 ≤ b && b < 0xF4 then some (3, 0x80, 0xBF)
  else none

def tailValue (b : UInt8) : Nat := b.toNat % 64

def front : Bytes → Front
  | [] => .cut
  | b :: rest =>
    if b < 0x80 then .scalar (.ofNat b.toNat) 1
    else match tails b with
      | none => .wrong 1
      | some (count, low, high) =>
        match rest with
        | [] => .cut
        | x :: rest =>
          if x < low || high < x then .wrong 1
          else if count = 1 then .scalar (.ofNat (b.toNat % 32 * 64 + tailValue x)) 2
          else match rest with
            | [] => .cut
            | y :: rest =>
              if !isTail y then .wrong 2
              else if count = 2 then
                .scalar (.ofNat (b.toNat % 16 * 4096 + tailValue x * 64 + tailValue y)) 3
              else match rest with
                | [] => .cut
                | z :: _ =>
                  if !isTail z then .wrong 3
                  else .scalar (.ofNat (b.toNat % 8 * 262144 + tailValue x * 4096
                    + tailValue y * 64 + tailValue z)) 4

/-- Bytes that are no text: where they start, how many they are, at which offset that is known, and
whether only the end of the input makes them wrong. -/
structure Fault where
  start : Nat
  width : Nat
  known : Nat
  cut : Bool
  deriving DecidableEq

def decodeWithin : Nat → Nat → Bytes → Except Fault Text
  | _, _, [] => .ok []
  | 0, start, bs => .error ⟨start, bs.length, start, false⟩
  | n + 1, start, bs =>
    match front bs with
    | .scalar c width => (decodeWithin n (start + width) (bs.drop width)).map (c :: ·)
    | .wrong width =>
      let known := if (tails (bs.headD 0)).isSome then start + width else start
      .error ⟨start, width, known, false⟩
    | .cut => .error ⟨start, bs.length, start + bs.length, true⟩

def decode (bs : Bytes) : Except Fault Text := decodeWithin bs.length 0 bs

def decode? (bs : Bytes) : Option Text := (decode bs).toOption

def replacement : CodePoint := .ofNat 0xFFFD

def decodeLossyWithin : Nat → Bytes → Text
  | _, [] => []
  | 0, _ :: _ => []
  | n + 1, bs =>
    match front bs with
    | .scalar c width => c :: decodeLossyWithin n (bs.drop width)
    | .wrong width => replacement :: decodeLossyWithin n (bs.drop width)
    | .cut => [replacement]

def decodeLossy (bs : Bytes) : Text := decodeLossyWithin bs.length bs

def leadingWithin : Nat → Bytes → Text
  | _, [] => []
  | 0, _ :: _ => []
  | n + 1, bs =>
    match front bs with
    | .scalar c width => c :: leadingWithin n (bs.drop width)
    | _ => []

end ChainReplay.Utf8
