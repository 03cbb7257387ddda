import SupplyNet.Measure.Quantity
import SupplyNet.Time.Grid

/-!
Series: one value for each stamp of a grid, with or without a unit.
-/
set_option autoImplicit false

namespace SupplyNet

structure Series (K : Type) where
  grid : Grid
  values : List K
  unit : Option (Measure.Unit K)
  length_eq : values.length = grid.size

namespace Series

variable {K : Type} [Scalar K]

instance : BEq (Series K) :=
  ⟨fun a b => a.grid = b.grid && a.values == b.values && a.unit == b.unit⟩

def ofValues (grid : Grid) (values : List K) : Except GridError (Series K) :=
  if h : values.length = grid.size then .ok ⟨grid, values, none, h⟩
  else .error (.lengthMismatch values.length grid.size)

def ofFn (grid : Grid) (f : Nat → K) : Series K :=
  ⟨grid, (List.range grid.size).map f, none, by simp⟩

def constant (grid : Grid) (value : K) : Series K := ofFn grid fun _ => value

def withUnit (s : Series K) (unit : Measure.Unit K) : Series K := { s with unit := some unit }

/-- The values in the unit `target`. -/
def valuesIn (s : Series K) (target : Measure.Unit K) : Except UnitError (List K) := do
  let factor ← match s.unit with
    | none => .ok 1
    | some unit => unit.ratio target
  return s.values.map (· * factor)

end Series

end SupplyNet
