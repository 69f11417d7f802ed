import ChainReplay.Power
import ChainReplay.Text.Blank
import ChainReplay.Text.DecimalDigit

/-! Reading integers. Blanks may surround a numeral, one sign may precede it, a single low line may
stand between two digits, and a decimal digit may belong to any script. The number of decimal digits
is limited. -/

namespace ChainReplay.Numeral

def digitValue? (c : CodePoint) : Option Nat :=
  if 97 ≤ c.val && c.val ≤ 122 then some (c.val - 87)
  else if 65 ≤ c.val && c.val ≤ 90 then some (c.val - 55)
  else Text.decimalValue? c

/-- Continues a number; `open_` tells whether the last code point was a digit. -/
def digitsFrom (base : Nat) (number : Nat) (open_ : Bool) : Text → Option Nat
  | [] => if open_ then some number else none
  | c :: rest =>
    if c = .ofChar '_' then
      if open_ then digitsFrom base number false rest else none
    else match digitValue? c with
      | none => none
      | some d => if d < base then digitsFrom base (number * base + d) true rest else none

def mostDigits : Nat := 4300

def isWritable (n : Int) : Bool := n.natAbs < 10 ^ mostDigits

def natural? (base : Nat) (t : Text) : Option Nat :=
  if base = 10 && mostDigits < t.countP (· != .ofChar '_') then none else digitsFrom base 0 false t

def splitSign : Text → Bool × Text
  | [] => (false, [])
  | c :: rest =>
    if c = .ofChar '-' then (true, rest)
    else if c = .ofChar '+' then (false, rest)
    else (false, c :: rest)

def signed (t : Text) (read : Text → Option Nat) : Option Int :=
  let (negative, magnitude) := splitSign (Text.stripBy Text.isNumeralBlank t)
  (read magnitude).map fun n => if negative then -(n : Int) else n

def integer? (t : Text) : Option Int := signed t (natural? 10)

def splitMark (letter : Char) : Text → Option Text
  | z :: c :: rest =>
    if digitValue? z = some 0 && (c = .ofChar letter || c = .ofChar letter.toUpper) then
      match rest with
      | u :: rest' => if u = .ofChar '_' then some rest' else some rest
      | [] => some rest
    else none
  | _ => none

def hexadecimal? (t : Text) : Option Int :=
  signed t fun m => natural? 16 ((splitMark 'x' m).getD m)

/-- An integer whose mark gives its base. Without a mark it is decimal, and only zero may begin
with a zero. -/
def literal? (t : Text) : Option Int :=
  signed t fun m =>
    match splitMark 'x' m, splitMark 'o' m, splitMark 'b' m with
    | some digits, _, _ => natural? 16 digits
    | _, some digits, _ => natural? 8 digits
    | _, _, some digits => natural? 2 digits
    | none, none, none =>
      match natural? 10 m with
      | none => none
      | some n => if (m.head?.bind digitValue?) = some 0 && n ≠ 0 then none else some n

end ChainReplay.Numeral
