import SupplyNet.Measure.Reader
import SupplyNet.Network.Rows

/-!
The total costs of a network: those of all sizes, of all storages and of all flows.
-/
set_option autoImplicit false

namespace SupplyNet

variable {K : Type} [Scalar K]

namespace Costs

def hour : Measure.Unit K := ⟨⟨3600.0, .ofTime⟩, "h"⟩

/-- Costs in the currency for each unit of a size. -/
def ofSize (currency unit : Measure.Unit K) (costs : Quantity K) : Except UnitError K := do
  costs.magnitudeIn (← currency.div unit)

/-- Costs in the currency for each unit of a flow that lasts an hour. -/
def ofAmount (currency unit : Measure.Unit K) (costs : Quantity K) : Except UnitError K := do
  costs.magnitudeIn (← currency.div (← unit.mul hour))

end Costs

namespace Node

def sizeUnit (n : Node K) (catalogue : Catalogue K) (f : NodeFlows K) :
    Except (CompileError K) (Measure.Unit K) :=
  match f.sizeCommodity with
  | some commodity => (catalogue.unitOf commodity).mapError .unit
  | none => .error (.noSizeCommodity n.name)

def sizeCosts (n : Node K) (catalogue : Catalogue K) (currency : Measure.Unit K) (f : NodeFlows K) :
    Except (CompileError K) (LinearExpr K) :=
  match f.size, n.costs with
  | some size, some costs => do
    let unit ← n.sizeUnit catalogue f
    return .term size (← (Costs.ofSize currency unit costs).mapError .unit)
  | _, _ => .ok 0

def storageCosts (n : Node K) (catalogue : Catalogue K) (currency : Measure.Unit K)
    (f : NodeFlows K) : Except (CompileError K) (LinearExpr K) :=
  match f.storage, n.storage with
  | some s, some storage => do
    let unit ← n.sizeUnit catalogue f
    return .term s.size (← (Costs.ofAmount currency unit storage.costs).mapError .unit)
  | _, _ => .ok 0

/-- The costs of all input flows over all time steps. -/
def flowCosts (n : Node K) (catalogue : Catalogue K) (currency : Measure.Unit K) (hours : K)
    (f : NodeFlows K) : Except (CompileError K) (LinearExpr K) :=
  match n.inputFlowCosts with
  | none => .ok 0
  | some costs =>
    f.inflows.foldlM (fun total stream => do
      let unit ← (catalogue.unitOf stream.commodity).mapError .unit
      let perAmount ← (Costs.ofAmount currency unit costs).mapError .unit
      return total + stream.flow.total.scale (perAmount * hours)) 0

def totalCosts (n : Node K) (catalogue : Catalogue K) (currency : Measure.Unit K) (hours : K)
    (f : NodeFlows K) : Except (CompileError K) (LinearExpr K) := do
  let size ← n.sizeCosts catalogue currency f
  let storage ← n.storageCosts catalogue currency f
  let flows ← n.flowCosts catalogue currency hours f
  return 0 + size + storage + flows

end Node

/-- The costs of all nodes. -/
def objective (catalogue : Catalogue K) (currency : Measure.Unit K) (hours : K)
    (nodes : List (Node K × NodeFlows K)) : Except (CompileError K) (LinearExpr K) :=
  nodes.foldlM (fun total (n, f) => return total + (← n.totalCosts catalogue currency hours f)) 0

end SupplyNet
