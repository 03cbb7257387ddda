/-!
Decimal numbers `digits * 10 ^ exponent` and their positional text.
-/
set_option autoImplicit false

namespace SupplyNet

structure Decimal where
  digits : Nat
  exponent : Int
  deriving DecidableEq

namespace Decimal

/-- The numerator and the denominator of `10 ^ e`. -/
def powTen (e : Int) : Nat × Nat := (Nat.pow 10 e.toNat, Nat.pow 10 (-e).toNat)

/-- Digits, never an exponent. With a negative exponent that many digits follow the point, and at
least one precedes it. -/
def positional (d : Decimal) : String :=
  let text := d.digits.repr
  if 0 ≤ d.exponent then text ++ "".pushn '0' d.exponent.toNat
  else
    let places := (-d.exponent).toNat
    let padded := List.replicate (places + 1 - text.length) '0' ++ text.toList
    let whole := padded.length - places
    String.ofList (padded.take whole) ++ "." ++ String.ofList (padded.drop whole)

/-- The decimal magnitude of `n / d`: the least `e` among the candidates with `n / d < 10 ^ e`. The
binary logarithms fix it up to a few candidates. -/
def magnitude (n d : Nat) : Int :=
  let guess := (((n.log2 : Int) - d.log2) * 30103).fdiv 100000 - 1
  let below (e : Int) : Bool := n * (powTen e).2 < d * (powTen e).1
  ([guess, guess + 1, guess + 2, guess + 3].find? below).getD (guess + 4)

end Decimal

end SupplyNet
