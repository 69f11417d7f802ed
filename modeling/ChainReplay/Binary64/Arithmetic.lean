import ChainReplay.Binary64

/-! Arithmetic on numbers of double precision. Each operation on finite numbers gives the number
nearest to its exact result. -/

namespace ChainReplay.Binary64

def one : Binary64 := finite false (2 ^ 52) (-52)

def ofScaled (n e : Int) : Binary64 :=
  let (num, den) := scaled n.natAbs 1 (-e)
  ofFraction (decide (n < 0)) num den

def ofInt? (n : Int) : Option Binary64 :=
  match ofScaled n 0 with
  | infinite _ => none
  | x => some x

def signed (negative : Bool) (m : Nat) : Int := if negative then -m else m

def scaled? : Binary64 → Option (Int × Int)
  | finite negative m e => some (signed negative m, e)
  | _ => none

def isNegative : Binary64 → Bool
  | nan => false
  | infinite negative => negative
  | finite negative _ _ => negative

def isZero : Binary64 → Bool
  | finite _ 0 _ => true
  | _ => false

def aligned (x y : Int × Int) : Int × Int × Int :=
  let e := min x.2 y.2
  (x.1 * 2 ^ (x.2 - e).toNat, y.1 * 2 ^ (y.2 - e).toNat, e)

def neg : Binary64 → Binary64
  | nan => nan
  | infinite negative => infinite !negative
  | finite negative m e => finite (!negative) m e

def add (x y : Binary64) : Binary64 :=
  match x, y with
  | finite sx mx ex, finite sy my ey =>
    if mx = 0 && my = 0 then finite (sx && sy) 0 leastExponent
    else
      let (a, b, e) := aligned (signed sx mx, ex) (signed sy my, ey)
      ofScaled (a + b) e
  | infinite s, finite _ _ _ | finite _ _ _, infinite s => infinite s
  | infinite s, infinite t => if s = t then infinite s else nan
  | nan, _ | _, nan => nan

def sub (x y : Binary64) : Binary64 := add x (neg y)

def mul (x y : Binary64) : Binary64 :=
  let negative := x.isNegative != y.isNegative
  match x, y with
  | finite _ mx ex, finite _ my ey =>
    let (num, den) := scaled (mx * my) 1 (-(ex + ey))
    ofFraction negative num den
  | nan, _ | _, nan => nan
  | _, _ => if x.isZero || y.isZero then nan else infinite negative

def div (x y : Binary64) : Binary64 :=
  let negative := x.isNegative != y.isNegative
  match x, y with
  | finite _ mx ex, finite _ my ey =>
    let (num, den) := scaled mx my (ey - ex)
    if my = 0 then nan else ofFraction negative num den
  | _, _ => nan

def rem (x y : Binary64) : Binary64 :=
  match x.scaled?, y.scaled? with
  | some a, some b =>
    let (a, b, e) := aligned a b
    let r := a.tmod b
    if r = 0 then finite x.isNegative 0 leastExponent else ofScaled r e
  | _, _ => nan

def floor (x : Binary64) : Binary64 :=
  match x.scaled? with
  | some (m, e) => if 0 ≤ e then x else ofScaled (m / 2 ^ e.natAbs) 0
  | none => x

def half : Binary64 := finite false (2 ^ 52) (-53)

def isAboveHalf (x : Binary64) : Bool :=
  match x, sub x half with
  | finite false _ _, finite false m _ => m ≠ 0
  | _, _ => false

/-- The integer nearest below a quotient that rounding may have left a little off. -/
def snapped (quotient : Binary64) : Binary64 :=
  let below := quotient.floor
  if (sub quotient below).isAboveHalf then add below one else below

/-- The quotient of finite numbers rounded down, the second not zero. The remainder is taken off
first, so that the division comes out even but for rounding. -/
def floorDiv (x y : Binary64) : Binary64 :=
  let r := rem x y
  let quotient := div (sub x r) y
  let quotient := if !r.isZero && y.isNegative != r.isNegative then sub quotient one else quotient
  if quotient.isZero then finite (x.isNegative != y.isNegative) 0 leastExponent
  else snapped quotient

end ChainReplay.Binary64
