import ChainReplay.Binary64.Arithmetic
import ChainReplay.Failure.Basic

/-! Token amounts and pair prices. Divisions round down. -/

namespace ChainReplay

/-- Amounts are whole, but with a negative number of places they are fractions. -/
inductive Amount where
  | whole (n : Int)
  | fraction (x : Binary64)

namespace Units

def binary (n : Int) : Except Failure Binary64 :=
  match Binary64.ofInt? n with
  | some x => .ok x
  | none => .error .overflow

def tenth (decimals : Int) : Except Failure Binary64 := do
  let _ ← binary decimals
  return Binary64.ofDecimal false 1 decimals

def expand (n decimals : Int) : Except Failure Amount := do
  if 0 ≤ decimals then return .whole (n * 10 ^ decimals.toNat)
  let factor ← tenth decimals
  return .fraction ((← binary n).mul factor)

def collapse (n decimals : Int) : Except Failure Amount := do
  if 0 ≤ decimals then return .whole (n / 10 ^ decimals.toNat)
  let divisor ← tenth decimals
  let x ← binary n
  if divisor.isZero then throw .divisionByZero
  return .fraction (x.floorDiv divisor)

def prices (reserve0 reserve1 : Int) : Except Failure (Int × Int) :=
  if reserve0 = 0 || reserve1 = 0 then .error .divisionByZero
  else .ok (Int.fdiv (reserve1 * 2 ^ 112) reserve0, Int.fdiv (reserve0 * 2 ^ 112) reserve1)

def reserves (a b : Address) (reserve0 reserve1 : Int) : Int × Int :=
  if a.isBigger b then (reserve1, reserve0) else (reserve0, reserve1)

end Units

end ChainReplay
