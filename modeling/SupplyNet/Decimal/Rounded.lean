import SupplyNet.Decimal
import SupplyNet.Rounding

/-!
Decimals nearest to a fraction, on a fixed grid or with a fixed count of digits. A tie goes to the
even digit.
-/
set_option autoImplicit false

namespace SupplyNet.Decimal

/-- The multiple of `10 ^ e` nearest to `n / d`. -/
def onGrid (n d : Nat) (e : Int) : Decimal :=
  ⟨divHalfEven (n * (powTen e).2) (d * (powTen e).1), e⟩

/-- With so many places after the point. -/
def places (count n d : Nat) : Decimal := onGrid n d (-count)

/-- With so many digits from the first one that is not zero. -/
def significant (count n d : Nat) : Decimal := onGrid n d (magnitude n d - count)

end SupplyNet.Decimal
