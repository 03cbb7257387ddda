/-!
Scalars: the numbers in which magnitudes, coefficients and solved values are computed.

Nothing is assumed of the operations here, so that rounded arithmetic is one instance and exact
rational arithmetic another. A definition of this library is written once over a scalar type; its
laws are stated over the rationals.
-/
set_option autoImplicit false

namespace SupplyNet

/-- Numbers to compute with. `toRat?` is the exact value of a number that has one, and `ofRat` is
the number nearest to a rational. -/
class Scalar (K : Type) extends Zero K, One K, Add K, Sub K, Mul K, Div K, Neg K, LT K, LE K, BEq K,
    OfScientific K where
  decLT : DecidableLT K
  decLE : DecidableLE K
  toRat? : K → Option Rat
  ofRat : Rat → K

instance Scalar.decidableLT {K : Type} [Scalar K] : DecidableLT K := Scalar.decLT

instance Scalar.decidableLE {K : Type} [Scalar K] : DecidableLE K := Scalar.decLE

instance : Scalar Rat where
  zero := 0
  one := 1
  decLT := inferInstance
  decLE := inferInstance
  toRat? := some
  ofRat q := q

namespace Scalar

variable {K : Type} [Scalar K]

def isFinite (x : K) : Bool := (toRat? x).isSome

def ofInt (n : Int) : K := ofRat n

def abs (x : K) : K := if x < 0 then -x else x

/-- A number is unordered if it does not even equal itself. -/
def unordered (x : K) : Bool := !(x == x)

/-! ## The lesser and the greater of two numbers; an unordered one gives way to the other -/

def lesser (a b : K) : K := if b < a ∨ unordered a then b else a

def greater (a b : K) : K := if a < b ∨ unordered a then b else a

/-! ## Integer powers -/

/-- The product `r * a ^ n` by repeated squaring of `a`, where the last square is not taken. -/
def mulPow (r a : K) (n : Nat) : K :=
  let product := if n % 2 = 1 then r * a else r
  if n / 2 = 0 then product else mulPow product (a * a) (n / 2)
termination_by n

/-- A negative power is the reciprocal of the positive one. -/
def zpow (a : K) (n : Int) : K :=
  let power := mulPow 1 a n.natAbs
  if n < 0 then 1 / power else power

theorem isFinite_rat (q : Rat) : isFinite q = true := rfl

theorem unordered_rat (q : Rat) : unordered q = false := by simp [unordered]

end Scalar

end SupplyNet
