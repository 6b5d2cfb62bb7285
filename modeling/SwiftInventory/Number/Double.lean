namespace SwiftInventory

/-- `mantissa · 2 ^ exponent` with at most 53 bits. All bits are used unless the exponent is the
least one. -/
structure FiniteDouble where
  negative : Bool
  mantissa : Nat
  exponent : Int
deriving DecidableEq

inductive Double
  | finite (x : FiniteDouble)
  | infinite (negative : Bool)
  | notANumber
deriving DecidableEq

/-- The nearest whole number; a half goes to the even neighbour. -/
def roundDiv (num den : Nat) : Nat :=
  let quotient := num / den
  let twice := 2 * (num % den)
  if twice < den || (twice == den && quotient % 2 == 0) then quotient else quotient + 1

namespace FiniteDouble

def leastExponent : Int := -1074

def greatestExponent : Int := 971

def mantissaBound : Nat := Nat.pow 2 53

/-- A power of a whole number; one where the exponent is negative. -/
def scale (base : Nat) (power : Int) : Nat := Nat.pow base power.toNat

def inUnits (num den : Nat) (exponent : Int) : Nat :=
  roundDiv (num * scale 2 (-exponent)) (den * scale 2 exponent)

/-- The nearest number to a fraction, if exponents had no upper end. -/
def ofFraction (negative : Bool) (num den : Nat) : FiniteDouble :=
  if num == 0 then ⟨negative, 0, leastExponent⟩
  else
    let exponent := max ((num.log2 : Int) - den.log2 - 53) leastExponent
    let mantissa := inUnits num den exponent
    if mantissa < mantissaBound then ⟨negative, mantissa, exponent⟩
    else
      let mantissa := inUnits num den (exponent + 1)
      if mantissa < mantissaBound then ⟨negative, mantissa, exponent + 1⟩
      else ⟨negative, mantissa / 2, exponent + 2⟩

def toPlaces (x : FiniteDouble) (places : Nat) : Nat :=
  roundDiv (x.mantissa * scale 2 x.exponent * Nat.pow 10 places) (scale 2 (-x.exponent))

/-- The point of the grid `10 ^ power` that is nearest to the value, if it reads back as the value.
All is counted in quarters of the last bit. The ends of what reads back belong to it when the
mantissa is even. -/
def onGrid? (x : FiniteDouble) (power : Int) : Option Nat :=
  let unit := x.exponent - 2
  let step := scale 10 power * scale 2 (-unit)
  let size := scale 10 (-power) * scale 2 unit
  let below := if 2 * x.mantissa == mantissaBound && leastExponent < x.exponent then 1 else 2
  let least := (4 * x.mantissa - below) * size
  let greatest := (4 * x.mantissa + 2) * size
  let reads (n : Nat) : Bool :=
    if x.mantissa % 2 == 0 then least ≤ n * step && n * step ≤ greatest
    else least < n * step && n * step < greatest
  let floor := 4 * x.mantissa * size / step
  let nearest := roundDiv (4 * x.mantissa * size) step
  if reads nearest then some nearest
  else if reads floor then some floor
  else if reads (floor + 1) then some (floor + 1)
  else none

/-- The first grid, from coarse to fine, with a point that reads back. -/
def shortestFrom (x : FiniteDouble) : Nat → Int → Nat × Int
  | 0, power => (0, power)
  | n + 1, power =>
    match x.onGrid? power with
    | some digits => (digits, power)
    | none => x.shortestFrom n (power - 1)

/-- The fewest digits that read back, and the power of ten they count. -/
def shortest (x : FiniteDouble) : Nat × Int :=
  let bits := (x.mantissa.log2 : Int) + 1 + x.exponent
  x.shortestFrom 24 (bits * 30103 / 100000 + 1)

end FiniteDouble

namespace Double

def zero : Double := .finite ⟨false, 0, FiniteDouble.leastExponent⟩

/-- What lies past the greatest double is infinite. -/
def ofFraction (negative : Bool) (num den : Nat) : Double :=
  let x := FiniteDouble.ofFraction negative num den
  if FiniteDouble.greatestExponent < x.exponent then .infinite negative else .finite x

/-- The double nearest to `digits · 10 ^ power`. Powers far out are settled without computing
them: a positive number below `10 ^ -325` is nearest to zero. -/
def ofDecimal (negative : Bool) (digits : Nat) (power : Int) : Double :=
  if digits != 0 && 310 < power then .infinite negative
  else if power + digits.log2 < -1100 then .finite ⟨negative, 0, FiniteDouble.leastExponent⟩
  else
    ofFraction negative (digits * FiniteDouble.scale 10 power) (FiniteDouble.scale 10 (-power))

end Double

end SwiftInventory
