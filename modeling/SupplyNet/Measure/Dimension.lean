/-!
Dimensions: the exponents of mass, length, time and currency in a unit of measure. An exponent has
eight bits, and an operation whose result would need more has none.
-/
set_option autoImplicit false

namespace SupplyNet.Measure

structure Exponent where
  val : Int
  lower : -128 ≤ val := by decide
  upper : val ≤ 127 := by decide
  deriving DecidableEq

namespace Exponent

def ofInt? (n : Int) : Option Exponent :=
  if h : -128 ≤ n ∧ n ≤ 127 then some ⟨n, h.1, h.2⟩ else none

def zero : Exponent := { val := 0 }

def add? (a b : Exponent) : Option Exponent := ofInt? (a.val + b.val)

def mul? (a b : Exponent) : Option Exponent := ofInt? (a.val * b.val)

def neg? (a : Exponent) : Option Exponent := ofInt? (-a.val)

/-- The sum with the negative, which must have eight bits as well. -/
def sub? (a b : Exponent) : Option Exponent := b.neg?.bind a.add?

theorem ofInt?_eq_some_iff {n : Int} {e : Exponent} : ofInt? n = some e ↔ n = e.val := by
  obtain ⟨v, h₁, h₂⟩ := e
  simp only [ofInt?]
  split
  · simp
  · simp only [reduceCtorEq, false_iff]
    omega

theorem add?_eq_some_iff {a b c : Exponent} : a.add? b = some c ↔ a.val + b.val = c.val :=
  ofInt?_eq_some_iff

theorem mul?_eq_some_iff {a b c : Exponent} : a.mul? b = some c ↔ a.val * b.val = c.val :=
  ofInt?_eq_some_iff

end Exponent

structure Dimension where
  mass : Exponent
  length : Exponent
  time : Exponent
  currency : Exponent
  deriving DecidableEq

namespace Dimension

def dimensionless : Dimension := ⟨.zero, .zero, .zero, .zero⟩

/-- Combines the exponents one by one. -/
def zip? (f : Exponent → Exponent → Option Exponent) (a b : Dimension) : Option Dimension := do
  return ⟨← f a.mass b.mass, ← f a.length b.length, ← f a.time b.time, ← f a.currency b.currency⟩

def mul? (a b : Dimension) : Option Dimension := zip? Exponent.add? a b

def div? (a b : Dimension) : Option Dimension := zip? Exponent.sub? a b

def pow? (a : Dimension) (n : Exponent) : Option Dimension := zip? Exponent.mul? a ⟨n, n, n, n⟩

/-! ## Dimensions of the known units -/

def ofMass : Dimension := { dimensionless with mass := { val := 1 } }

def ofLength : Dimension := { dimensionless with length := { val := 1 } }

def ofVolume : Dimension := { dimensionless with length := { val := 3 } }

def ofTime : Dimension := { dimensionless with time := { val := 1 } }

def ofCurrency : Dimension := { dimensionless with currency := { val := 1 } }

def ofMassFlow : Dimension := { ofMass with time := { val := -1 } }

def ofEnergy : Dimension := { ofMass with length := { val := 2 }, time := { val := -2 } }

def ofPower : Dimension := { ofMass with length := { val := 2 }, time := { val := -3 } }

end Dimension

end SupplyNet.Measure
