import SupplyNet.Measure.Dimension
import SupplyNet.Scalar

/-!
Gauges: what a unit of measure amounts to, whatever its symbol. A gauge is the factor to the base
units kg, m, s and EUR together with a dimension.
-/
set_option autoImplicit false

namespace SupplyNet.Measure

structure Gauge (K : Type) where
  scale : K
  dimension : Dimension
  deriving DecidableEq

namespace Gauge

variable {K : Type} [Scalar K]

def one : Gauge K := ⟨1, .dimensionless⟩

def mul? (a b : Gauge K) : Option (Gauge K) :=
  (a.dimension.mul? b.dimension).map (⟨a.scale * b.scale, ·⟩)

def div? (a b : Gauge K) : Option (Gauge K) :=
  (a.dimension.div? b.dimension).map (⟨a.scale / b.scale, ·⟩)

def pow? (a : Gauge K) (n : Exponent) : Option (Gauge K) :=
  (a.dimension.pow? n).map (⟨Scalar.zpow a.scale n.val, ·⟩)

/-- Equal dimensions, and scales that agree to twelve digits. -/
def agrees (a b : Gauge K) : Bool :=
  a.dimension = b.dimension ∧
    Scalar.abs (a.scale - b.scale) ≤
      1e-12 * Scalar.greater (Scalar.abs a.scale) (Scalar.abs b.scale)

/-- The symbols that a unit may be built from. -/
def known? : String → Option (Gauge K)
  | "g" => some ⟨1e-3, .ofMass⟩
  | "kg" => some ⟨1, .ofMass⟩
  | "t" => some ⟨1e3, .ofMass⟩
  | "m" => some ⟨1, .ofLength⟩
  | "l" => some ⟨1e-3, .ofVolume⟩
  | "s" => some ⟨1, .ofTime⟩
  | "min" => some ⟨60.0, .ofTime⟩
  | "h" => some ⟨3600.0, .ofTime⟩
  | "d" => some ⟨86400.0, .ofTime⟩
  | "J" => some ⟨1, .ofEnergy⟩
  | "kJ" => some ⟨1e3, .ofEnergy⟩
  | "MJ" => some ⟨1e6, .ofEnergy⟩
  | "GJ" => some ⟨1e9, .ofEnergy⟩
  | "Wh" => some ⟨3.6e3, .ofEnergy⟩
  | "kWh" => some ⟨3.6e6, .ofEnergy⟩
  | "MWh" => some ⟨3.6e9, .ofEnergy⟩
  | "GWh" => some ⟨3.6e12, .ofEnergy⟩
  | "TWh" => some ⟨3.6e15, .ofEnergy⟩
  | "W" => some ⟨1, .ofPower⟩
  | "kW" => some ⟨1e3, .ofPower⟩
  | "MW" => some ⟨1e6, .ofPower⟩
  | "GW" => some ⟨1e9, .ofPower⟩
  | "TW" => some ⟨1e12, .ofPower⟩
  | "EUR" => some ⟨1, .ofCurrency⟩
  | "kEUR" => some ⟨1e3, .ofCurrency⟩
  | "MEUR" => some ⟨1e6, .ofCurrency⟩
  | _ => none

end Gauge

end SupplyNet.Measure
