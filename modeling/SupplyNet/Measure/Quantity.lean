import SupplyNet.Measure.Unit
import SupplyNet.Scalar.Text

/-!
Quantities: magnitudes with or without a unit. A magnitude without one is taken to be in whatever
unit it is asked for.
-/
set_option autoImplicit false

namespace SupplyNet

structure Quantity (K : Type) where
  magnitude : K
  unit : Option (Measure.Unit K)
  deriving DecidableEq

namespace Quantity

variable {K : Type} [Scalar K]

def plain (magnitude : K) : Quantity K := ⟨magnitude, none⟩

instance : BEq (Quantity K) := ⟨fun a b => a.magnitude == b.magnitude && a.unit == b.unit⟩

/-- The magnitude in the unit `target`. -/
def magnitudeIn (q : Quantity K) (target : Measure.Unit K) : Except UnitError K :=
  match q.unit with
  | none => .ok q.magnitude
  | some unit => (unit.ratio target).map (q.magnitude * ·)

def convert (q : Quantity K) (target : Measure.Unit K) : Except UnitError (Quantity K) :=
  (q.magnitudeIn target).map (⟨·, some target⟩)

def text [ScalarText K] (q : Quantity K) : String :=
  match q.unit with
  | none => ScalarText.plain q.magnitude
  | some unit => ScalarText.plain q.magnitude ++ " " ++ unit.symbol

end Quantity

end SupplyNet
