import SupplyNet.Keyed
import SupplyNet.Measure.Unit

/-!
Catalogues: the unit in which the flows of each commodity are counted.
-/
set_option autoImplicit false

namespace SupplyNet

structure Catalogue (K : Type) where
  units : Keyed (Measure.Unit K)

namespace Catalogue

variable {K : Type} [Scalar K]

def empty : Catalogue K := ⟨.empty⟩

def insert (c : Catalogue K) (commodity : String) (unit : Measure.Unit K) : Catalogue K :=
  ⟨c.units.insert commodity unit⟩

def unitOf (c : Catalogue K) (commodity : String) : Except UnitError (Measure.Unit K) :=
  match c.units.find? commodity with
  | some unit => .ok unit
  | none => .error (.noUnit commodity)

def megawatt : Measure.Unit K := ⟨⟨1e6, .ofPower⟩, "MW"⟩

def tonnePerHour : Measure.Unit K := ⟨⟨1e3 / 3600.0, .ofMassFlow⟩, "t/h"⟩

/-- Energy carriers in megawatts, matter in tonnes per hour. -/
def standard : Catalogue K :=
  ⟨.ofList [("electricity", megawatt), ("co2", tonnePerHour), ("hydrogen", tonnePerHour),
    ("gas", megawatt), ("methanol", tonnePerHour)]⟩

end Catalogue

end SupplyNet
