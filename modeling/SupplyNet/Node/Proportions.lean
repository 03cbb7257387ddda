import SupplyNet.Keyed
import SupplyNet.Node.Error

/-!
Proportions between the flows on one side of a node: a ratio for each of its commodities, or one
for each of its neighbours.
-/
set_option autoImplicit false

namespace SupplyNet

variable {K : Type} [Scalar K]

/-- The keys must be all the commodities or all the neighbours, and the ratios positive. -/
def proportionFault (node : String) (side : Direction) (ratios : Keyed (Quantity K))
    (commodities neighbours : List String) : Option (ProportionError K) :=
  if ratios.keys ≠ distinct commodities ∧ ratios.keys ≠ distinct neighbours then
    some (.keys node side (distinct commodities) (distinct neighbours))
  else
    (ratios.entries.find? fun e => !decide (0 < e.2.magnitude)).map fun e =>
      .notPositive node side e.1 e.2

end SupplyNet
