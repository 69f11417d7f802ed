import ChainReplay.Power
import ChainReplay.Text.Basic

/-! Numbers of double precision as exact dyadic fractions: rounding a decimal to the nearest of
them, the fewest digits that read back, and the integer part. -/

namespace ChainReplay

/-- A finite number is `mantissa * 2 ^ exponent`, with 53 bits in the mantissa unless the exponent
is the least one. -/
inductive Binary64 where
  | nan
  | infinite (negative : Bool)
  | finite (negative : Bool) (mantissa : Nat) (exponent : Int)
  deriving DecidableEq

namespace Binary64

def leastExponent : Int := -1074

def greatestExponent : Int := 971

/-- The quotient rounded to the nearest integer, a half to the even one. -/
def roundedQuotient (num den : Nat) : Nat :=
  let q := num / den
  let twice := 2 * (num % den)
  if twice > den || (twice = den && q % 2 = 1) then q + 1 else q

def scaled (num den : Nat) (e : Int) : Nat × Nat :=
  if e < 0 then (num * 2 ^ e.natAbs, den) else (num, den * 2 ^ e.natAbs)

def exponentOf (num den : Nat) : Int :=
  let guess : Int := (num.log2 : Int) - den.log2 - 53
  let (n, d) := scaled num den guess
  if d * 2 ^ 53 ≤ n then guess + 1 else guess

def ofFraction (negative : Bool) (num den : Nat) : Binary64 :=
  if num = 0 then finite negative 0 leastExponent
  else
    let e := max (exponentOf num den) leastExponent
    let (n, d) := scaled num den e
    let m := roundedQuotient n d
    let (m, e) := if m = 2 ^ 53 then (2 ^ 52, e + 1) else (m, e)
    if greatestExponent < e then infinite negative else finite negative m e

/-- The number nearest to `digits * 10 ^ exponent`. Exponents far outside the range are cut short.
-/
def ofDecimal (negative : Bool) (digits : Nat) (exponent : Int) : Binary64 :=
  let size : Int := (Nat.toDigits 10 digits).length + exponent
  if digits = 0 || size < -330 then finite negative 0 leastExponent
  else if 330 < size then infinite negative
  else if exponent < 0 then ofFraction negative digits (10 ^ exponent.natAbs)
  else ofFraction negative (digits * 10 ^ exponent.natAbs) 1

def truncate? : Binary64 → Option Int
  | finite negative m e =>
    let n : Nat := if e < 0 then m / 2 ^ e.natAbs else m * 2 ^ e.natAbs
    some (if negative then -(n : Int) else n)
  | _ => none

/-- Whether `c / d` rounds to the positive number `m * 2 ^ e`, seen from numbers scaled by
`4 * 2 ^ (-e)`: the half ways to its neighbours belong to it when its mantissa is even. -/
def roundsTo (m : Nat) (e : Int) (c d : Nat) : Bool :=
  let (n, d) := scaled (4 * c) d e
  let low := if m = 2 ^ 52 && leastExponent < e then 4 * m - 1 else 4 * m - 2
  let high := 4 * m + 2
  if m % 2 = 0 then low * d ≤ n && n ≤ high * d else low * d < n && n < high * d

def atPlace (m : Nat) (e place : Int) : Nat × Nat :=
  let (num, den) := if e < 0 then (m, 2 ^ e.natAbs) else (m * 2 ^ e.natAbs, 1)
  if place < 0 then (num * 10 ^ place.natAbs, den) else (num, den * 10 ^ place.natAbs)

def isHit (m : Nat) (e place : Int) (c : Nat) : Bool :=
  if place < 0 then roundsTo m e c (10 ^ place.natAbs) else roundsTo m e (c * 10 ^ place.natAbs) 1

/-- The multiple of `10 ^ place` that reads back as the number, the nearer one if both neighbours
do. -/
def onGrid? (m : Nat) (e place : Int) : Option Nat :=
  let (num, den) := atPlace m e place
  let below := num / den
  let nearest := roundedQuotient num den
  if isHit m e place nearest then some nearest
  else if isHit m e place below then some below
  else if isHit m e place (below + 1) then some (below + 1)
  else none

def search (m : Nat) (e : Int) : Nat → Int → Nat × Int
  | 0, place => ((onGrid? m e place).getD 0, place)
  | n + 1, place =>
    match onGrid? m e place with
    | some c => if c = 0 then search m e n (place - 1) else (c, place)
    | none => search m e n (place - 1)

/-- The place of the leading digit: `10 ^ place ≤ m * 2 ^ e < 10 ^ (place + 1)`. -/
def leadingPlace (m : Nat) (e : Int) : Int :=
  let (num, den) := atPlace m e 0
  if den ≤ num then (Nat.toDigits 10 (num / den)).length - 1
  else
    let inverse := (den + num - 1) / num
    Int.negOfNat (Nat.toDigits 10 (inverse - 1)).length

def dropZeros : Nat → Nat → Int → Nat × Int
  | 0, c, place => (c, place)
  | n + 1, c, place => if c % 10 = 0 && c ≠ 0 then dropZeros n (c / 10) (place + 1) else (c, place)

def shortest (m : Nat) (e : Int) : Nat × Int :=
  let (c, place) := search m e 18 (leadingPlace m e)
  dropZeros 20 c place

/-- Positional text from 10 ^ (-4) up to 10 ^ 16, an exponent of at least two digits elsewhere. -/
def magnitudeText (m : Nat) (e : Int) : Text :=
  if m = 0 then "0.0"
  else
    let (c, place) := shortest m e
    let digits := Nat.toDigits 10 c
    let leading : Int := digits.length - 1 + place
    let zeros (n : Nat) := List.replicate n '0'
    if -4 ≤ leading && leading < 16 then
      if 0 ≤ place then Text.ofChars (digits ++ zeros place.natAbs) ++ ".0"
      else if 0 ≤ leading then
        let split := digits.length - place.natAbs
        Text.ofChars (digits.take split ++ '.' :: digits.drop split)
      else Text.ofChars ('0' :: '.' :: zeros (leading.natAbs - 1) ++ digits)
    else
      let fraction := match digits with
        | d :: x :: rest => [d, '.', x] ++ rest
        | ds => ds
      let sign := if leading < 0 then '-' else '+'
      Text.ofChars (fraction ++ ['e', sign]) ++ Text.padded 10 2 leading.natAbs

def text : Binary64 → Text
  | nan => "nan"
  | infinite negative => if negative then "-inf" else "inf"
  | finite negative m e => (if negative then "-" else "") ++ magnitudeText m e

end Binary64

end ChainReplay
