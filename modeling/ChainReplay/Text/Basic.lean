/-! Texts as sequences of code points. Unlike in a `String`, a surrogate may stand alone: documents
can spell one with an escape, and no byte encoding can write it. -/

namespace ChainReplay

structure CodePoint where
  val : Nat
  isLt : val < 0x110000
  deriving DecidableEq

namespace CodePoint

def ofNat (n : Nat) : CodePoint :=
  if h : n < 0x110000 then ⟨n, h⟩ else ⟨0xFFFD, by decide⟩

def ofChar (c : Char) : CodePoint := ofNat c.toNat

def isSurrogate (c : CodePoint) : Bool := 0xD800 ≤ c.val && c.val < 0xE000

def toChar? (c : CodePoint) : Option Char :=
  if c.isSurrogate then none else some (Char.ofNat c.val)

end CodePoint

abbrev Text := List CodePoint

namespace Text

def ofChars (cs : List Char) : Text := cs.map CodePoint.ofChar

def ofString (s : String) : Text := ofChars s.toList

instance : Coe String Text := ⟨ofString⟩

def chars? (t : Text) : Option (List Char) := t.mapM CodePoint.toChar?

def toString (t : Text) : String :=
  String.ofList (t.map fun c => (c.toChar?).getD '\uFFFD')

def ofNat (n : Nat) : Text := ofChars (Nat.toDigits 10 n)

def ofInt : Int → Text
  | .ofNat n => ofNat n
  | .negSucc n => "-" ++ ofNat (n + 1)

def padded (base width n : Nat) : Text :=
  let digits := Nat.toDigits base n
  ofChars (List.replicate (width - digits.length) '0' ++ digits)

def hexadecimal (width : Nat) : Int → Text
  | .ofNat n => padded 16 width n
  | .negSucc n => "-" ++ padded 16 (width - 1) (n + 1)

def join (separator : Text) : List Text → Text
  | [] => []
  | [t] => t
  | t :: ts => t ++ separator ++ join separator ts

def toUpperAscii (t : Text) : Text :=
  t.map fun c => if 97 ≤ c.val && c.val ≤ 122 then .ofNat (c.val - 32) else c

def splitFirst (separator : Char) (t : Text) : Text × Option Text :=
  let head := t.takeWhile (· != .ofChar separator)
  match t.drop head.length with
  | [] => (head, none)
  | _ :: rest => (head, some rest)

def splitAll (separator : Char) : Text → List Text
  | [] => [[]]
  | c :: rest =>
    match splitAll separator rest with
    | [] => [[c]]
    | part :: parts =>
      if c = .ofChar separator then [] :: part :: parts else (c :: part) :: parts

end Text

end ChainReplay
