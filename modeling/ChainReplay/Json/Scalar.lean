import ChainReplay.Bytes.Basic
import ChainReplay.Json.Basic
import ChainReplay.Text.Numeral

/-! Reading the texts and numbers of a JSON text from the front of a character sequence. -/

namespace ChainReplay.Json

def isSpace (c : Char) : Bool := c = ' ' || c = '\t' || c = '\n' || c = '\r'

def skipSpace (cs : List Char) : List Char := cs.dropWhile isSpace

def isDigit (c : Char) : Bool := '0' ≤ c && c ≤ '9'

def simpleEscape? : Char → Option Char
  | '"' => some '"'
  | '\\' => some '\\'
  | '/' => some '/'
  | 'b' => some '\x08'
  | 'f' => some '\x0c'
  | 'n' => some '\n'
  | 'r' => some '\r'
  | 't' => some '\t'
  | _ => none

def unitOfHex? (a b c d : Char) : Option CodePoint := do
  let a ← Bytes.hexValue? a
  let b ← Bytes.hexValue? b
  let c ← Bytes.hexValue? c
  let d ← Bytes.hexValue? d
  return .ofNat (a * 4096 + b * 256 + c * 16 + d)

/-- The code points up to the closing quote, with escaped surrogates still apart. Control characters
have to be escaped. -/
def readUnits : List Char → Option (Text × List Char)
  | [] => none
  | '"' :: rest => some ([], rest)
  | '\\' :: 'u' :: a :: b :: c :: d :: rest => do
    let unit ← unitOfHex? a b c d
    let (tail, rest) ← readUnits rest
    return (unit :: tail, rest)
  | '\\' :: c :: rest => do
    let c ← simpleEscape? c
    let (tail, rest) ← readUnits rest
    return (.ofChar c :: tail, rest)
  | c :: rest =>
    if c.toNat < 0x20 || c = '\\' then none
    else do
      let (tail, rest) ← readUnits rest
      return (.ofChar c :: tail, rest)

/-- A high surrogate and the low one behind it make one code point. -/
def joinSurrogates : Text → Text
  | a :: b :: rest =>
    if 0xD800 ≤ a.val && a.val < 0xDC00 && 0xDC00 ≤ b.val && b.val < 0xE000 then
      .ofNat (0x10000 + (a.val - 0xD800) * 1024 + (b.val - 0xDC00)) :: joinSurrogates rest
    else a :: joinSurrogates (b :: rest)
  | t => t

def readText (cs : List Char) : Option (Text × List Char) :=
  (readUnits cs).map fun (t, rest) => (joinSurrogates t, rest)

def digitsValue (cs : List Char) : Nat := cs.foldl (fun n c => n * 10 + (c.toNat - 48)) 0

def splitDigits (cs : List Char) : List Char × List Char :=
  (cs.takeWhile isDigit, cs.dropWhile isDigit)

def readWhole : List Char → Option (List Char × List Char)
  | '0' :: rest => some (['0'], rest)
  | c :: rest => if isDigit c then some (splitDigits (c :: rest)) else none
  | [] => none

def readFraction : List Char → List Char × List Char
  | '.' :: rest =>
    match splitDigits rest with
    | ([], _) => ([], '.' :: rest)
    | found => found
  | cs => ([], cs)

def readExponent (cs : List Char) : Option Int × List Char :=
  match cs with
  | c :: rest =>
    if c = 'e' || c = 'E' then
      let (negative, rest) := match rest with
        | '-' :: rest => (true, rest)
        | '+' :: rest => (false, rest)
        | rest => (false, rest)
      match splitDigits rest with
      | ([], _) => (none, cs)
      | (digits, rest) =>
        let n : Int := digitsValue digits
        (some (if negative then -n else n), rest)
    else (none, cs)
  | [] => (none, cs)

inductive ReadError where
  | malformed
  | longNumber
  | tooDeep
  deriving DecidableEq

/-- A number without its sign. With a fraction or an exponent it is not an integer, and may have any
number of digits. -/
def readMagnitude (negative : Bool) (cs : List Char) : Except ReadError (Json × List Char) := do
  let some (whole, rest) := readWhole cs | throw .malformed
  let (fraction, rest) := readFraction rest
  let (exponent, rest) := readExponent rest
  if fraction.isEmpty && exponent.isNone then
    if Numeral.mostDigits < whole.length then throw .longNumber
    let n : Int := digitsValue whole
    return (.int (if negative then -n else n), rest)
  let digits := digitsValue (whole ++ fraction)
  return (.real (.ofDecimal negative digits (exponent.getD 0 - fraction.length)), rest)

def readNumber : List Char → Except ReadError (Json × List Char)
  | 'N' :: 'a' :: 'N' :: rest => .ok (.real .nan, rest)
  | 'I' :: 'n' :: 'f' :: 'i' :: 'n' :: 'i' :: 't' :: 'y' :: rest =>
    .ok (.real (.infinite false), rest)
  | '-' :: 'I' :: 'n' :: 'f' :: 'i' :: 'n' :: 'i' :: 't' :: 'y' :: rest =>
    .ok (.real (.infinite true), rest)
  | '-' :: rest => readMagnitude true rest
  | cs => readMagnitude false cs

end ChainReplay.Json
