/-! Nonnegative numbers of double precision, computed exactly. Every operation rounds to the nearest
double, a tie to the one with the even mantissa. -/

namespace ModuleAtlas

/-- The number `mantissa * 2 ^ exponent`. -/
structure Double where
  mantissa : Nat
  exponent : Int
  deriving DecidableEq, Repr

/-- The integer nearest to a quotient; of two, the even one. -/
def nearest (numerator denominator : Nat) : Nat :=
  let quotient := numerator / denominator
  let twice := 2 * (numerator % denominator)
  if twice < denominator ∨ (twice = denominator ∧ quotient % 2 = 0) then quotient else quotient + 1

namespace Double

/-- The power of two that a quotient is measured in: its mantissa then has 53 bits, or fewer where
the unit would be too small. -/
def unitOf (numerator denominator : Nat) : Int :=
  let low : Int := numerator.log2 - denominator.log2 - 53
  let fits := numerator <<< (-low).toNat < denominator <<< (53 + low.toNat)
  max (if fits then low else low + 1) (-1074)

/-- None beyond the largest double. -/
def round? (numerator denominator : Nat) : Option Double :=
  let exponent := unitOf numerator denominator
  let mantissa :=
    nearest (numerator <<< (-exponent).toNat) (denominator <<< exponent.toNat)
  if 1 <<< 1024 ≤ mantissa <<< exponent.toNat then none else some ⟨mantissa, exponent⟩

/-- The numerator and the denominator of `mantissa * 2 ^ exponent`. -/
def ratio (a : Double) : Nat × Nat :=
  (a.mantissa <<< a.exponent.toNat, 1 <<< (-a.exponent).toNat)

def mul? (a b : Double) : Option Double :=
  round? (a.ratio.1 * b.ratio.1) (a.ratio.2 * b.ratio.2)

def div? (a b : Double) : Option Double :=
  round? (a.ratio.1 * b.ratio.2) (a.ratio.2 * b.ratio.1)

def powerOfTen? (n : Nat) : Option Double :=
  round? (Nat.pow 10 n) 1

/-- The powers of ten up to this one are doubles. -/
def topPower : Nat := 308

/-- Multiply by ten to the `power` in one step, or divide in steps of the largest power. -/
def shift? (a : Double) (power : Int) : Option Double :=
  if power.natAbs ≤ topPower then do
    let ten ← powerOfTen? power.natAbs
    if 0 ≤ power then a.mul? ten else a.div? ten
  else if a.mantissa = 0 then some a
  else if 0 ≤ power then none
  else do
    let ten ← powerOfTen? topPower
    let a ← a.div? ten
    a.shift? (power + topPower)
termination_by power.natAbs
decreasing_by simp only [topPower] at *; omega

/-- Take out factors of two, at most `n`; also how many of the `n` are left. -/
def halve : Nat → Nat → Nat × Nat
  | m, 0 => (m, 0)
  | m, n + 1 => if m % 2 = 0 then halve (m / 2) n else (m, n + 1)

/-- Digits and an exponent of ten that give the number exactly. -/
def toDecimal (a : Double) : Nat × Int :=
  if 0 ≤ a.exponent then (a.mantissa <<< a.exponent.toNat, 0)
  else
    let (odd, n) := halve a.mantissa (-a.exponent).toNat
    (odd * Nat.pow 5 n, -(n : Int))

end Double

end ModuleAtlas
