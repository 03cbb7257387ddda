import SupplyNet.Decimal
import SupplyNet.Scalar.Binary

/-!
The shortest decimal that reads back as a given binary number: the fewest digits, then the decimal
nearest to the number, then the greater of two that are equally near.
-/
set_option autoImplicit false

namespace SupplyNet.Decimal

/-- The numbers `lower / scale` to `upper / scale` that round to the number `value / scale`; the
ends belong to them if the mantissa is even. -/
structure RoundingRange where
  lower : Nat
  value : Nat
  upper : Nat
  scale : Nat
  closed : Bool

/-- Half the way to the neighbours. Below a power of two the neighbours lie twice as dense, except
at the lowest exponent. -/
def RoundingRange.of (p : Binary.Parts) : RoundingRange :=
  let (n, d) := p.fraction
  let unit := Nat.pow 2 p.exponent.toNat
  let narrow := p.mantissa = Nat.pow 2 52 ∧ -1074 < p.exponent
  ⟨4 * n - (if narrow then unit else 2 * unit), 4 * n, 4 * n + 2 * unit, 4 * d,
    p.mantissa % 2 = 0⟩

/-- Whether `digits * 10 ^ e` lies in the range. -/
def RoundingRange.holds (r : RoundingRange) (e : Int) (digits : Nat) : Bool :=
  let x := digits * (powTen e).1 * r.scale
  let lower := r.lower * (powTen e).2
  let upper := r.upper * (powTen e).2
  if r.closed then lower ≤ x && x ≤ upper else lower < x && x < upper

/-- The better of the two neighbours of the number among the multiples of `10 ^ e`, if one lies in
the range. -/
def RoundingRange.onGrid? (r : RoundingRange) (e : Int) : Option Decimal :=
  let n := r.value * (powTen e).2
  let d := r.scale * (powTen e).1
  let low := n / d
  let order := if 2 * (n % d) < d then [low, low + 1] else [low + 1, low]
  (order.find? (r.holds e)).map (⟨·, e⟩)

/-- Without trailing zeros, of which there are at most `fuel`. -/
def trim : (fuel : Nat) → Decimal → Decimal
  | 0, d => d
  | fuel + 1, d =>
    if d.digits ≠ 0 ∧ d.digits % 10 = 0 then trim fuel ⟨d.digits / 10, d.exponent + 1⟩ else d

/-- Seventeen digits suffice for every number. -/
def shortest (p : Binary.Parts) : Decimal :=
  if p.mantissa = 0 then ⟨0, 0⟩
  else
    let range := RoundingRange.of p
    let e := magnitude range.value range.scale
    let grids := (List.range 17).map fun k => e - (k + 1 : Nat)
    trim 17 ((grids.findSome? range.onGrid?).getD ⟨p.mantissa, p.exponent⟩)

end SupplyNet.Decimal
