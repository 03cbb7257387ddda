import SupplyNet.Rounding
import SupplyNet.Scalar

/-!
Binary floating point numbers as scalars: a finite one is `± mantissa * 2 ^ exponent`, and a
rational is rounded to the nearest number, a tie going to the even mantissa.
-/
set_option autoImplicit false

namespace SupplyNet.Binary

/-- The number `± mantissa * 2 ^ exponent`. -/
structure Parts where
  negative : Bool
  mantissa : Nat
  exponent : Int
  deriving DecidableEq

/-- A numerator and a denominator of the magnitude. -/
def Parts.fraction (p : Parts) : Nat × Nat :=
  (p.mantissa * Nat.pow 2 p.exponent.toNat, Nat.pow 2 (-p.exponent).toNat)

def Parts.toRat (p : Parts) : Rat :=
  let (n, d) := p.fraction
  mkRat (if p.negative then -n else n) d

/-- The sign, the mantissa and the exponent of a finite number. The fields of the bit pattern are
one bit for the sign, eleven for the exponent and 52 for the fraction; the lowest exponent marks
the numbers without a leading one, the highest the infinities and NaN. -/
def parts? (x : Float) : Option Parts :=
  let bits := x.toBits.toNat
  let negative : Bool := bits / Nat.pow 2 63 = 1
  let field : Nat := bits / Nat.pow 2 52 % Nat.pow 2 11
  let fraction : Nat := bits % Nat.pow 2 52
  if field = 2047 then none
  else if field = 0 then some ⟨negative, fraction, -1074⟩
  else some ⟨negative, fraction + Nat.pow 2 52, (field : Int) - 1075⟩

def isNegative (x : Float) : Bool := x.toBits.toNat / Nat.pow 2 63 = 1

/-! ## Rounding -/

/-- The exponent at which the mantissa of `n / d` has 53 bits, or the lowest one. -/
def exponentFor (n d : Nat) : Int :=
  let low : Int := (n.log2 : Int) - d.log2 - 53
  let e :=
    if n * Nat.pow 2 (-(low + 53)).toNat < d * Nat.pow 2 (low + 53).toNat then low else low + 1
  if e < -1074 then -1074 else e

/-- The bit pattern of the number nearest to `n / d`. A mantissa that rounds up to a further bit
carries into the exponent field, and past the last exponent into infinity. -/
def nearestBits (n d : Nat) : Nat :=
  let e := exponentFor n d
  let mantissa := divHalfEven (n * Nat.pow 2 (-e).toNat) (d * Nat.pow 2 e.toNat)
  min ((e + 1074).toNat * Nat.pow 2 52 + mantissa) (2047 * Nat.pow 2 52)

def ofRat (q : Rat) : Float :=
  if q.num = 0 then 0
  else
    let bits := nearestBits q.num.natAbs q.den
    Float.ofBits (.ofNat (if q.num < 0 then bits + Nat.pow 2 63 else bits))

end SupplyNet.Binary

namespace SupplyNet

instance : Scalar Float where
  zero := 0
  one := 1
  decLT := inferInstance
  decLE := inferInstance
  toRat? x := (Binary.parts? x).map (·.toRat)
  ofRat := Binary.ofRat

end SupplyNet
