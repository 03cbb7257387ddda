import SupplyNet.Fault
import SupplyNet.Measure.Catalogue
import SupplyNet.Network.Graph
import SupplyNet.Node.Proportions

/-!
The commodities of all flows of a network, and the one that limits the size of each node. They
follow from the graph alone.
-/
set_option autoImplicit false

namespace SupplyNet

/-- One commodity for each input flow and one for each output flow. The size is that of the flow of
one output commodity. -/
structure NodeCommodities where
  inflow : List String
  outflow : List String
  size : Option String
  deriving DecidableEq

namespace Node

variable {K : Type} [Scalar K]

/-- The only one of a list of commodities, repetitions aside. -/
def single? (commodities : List String) : Option String :=
  match distinct commodities with
  | [commodity] => some commodity
  | _ => none

/-- The commodity that a node without output nodes puts out: as declared, or the only one it
converts to, or its only input commodity. -/
def leafOutput (n : Node K) : Except (CommodityError K) String :=
  let converted := match n.conversions with
    | some conversions => single? conversions.keys
    | none => none
  let passedOn :=
    if n.kind = .generic ∨ n.kind = .fixedOutput then single? n.inputCommodities else none
  match n.outputCommodity <|> converted <|> passedOn with
  | some commodity => .ok commodity
  | none => .error (.noLeafOutput n.name)

/-- The commodity of an input flow out of nowhere: the only one that is converted, or the only
output commodity. -/
def leafInput (n : Node K) (outflow : List String) : Except (CommodityError K) String :=
  let converted := match n.conversions with
    | some conversions => single? (conversions.values.map (·.source))
    | none => none
  match converted <|> single? outflow with
  | some commodity => .ok commodity
  | none => .error (.noLeafInput n.name (distinct outflow))

/-- Output commodities must be as declared, if any is. -/
def asDeclared (n : Node K) (commodities : List String) :
    Except (CommodityError K) (List String) :=
  match n.outputCommodity with
  | some declared =>
    if commodities.all (· = declared) then return commodities
    else throw (.declaredOutput n.name declared commodities)
  | none => return commodities

/-- The commodities of the edges, or that of the flow of a leaf. -/
def outflow (n : Node K) (edges : List String) : Except (CommodityError K) (List String) := do
  n.asDeclared (← if edges.isEmpty then n.leafOutput.map ([·]) else .ok edges)

def inflow (n : Node K) (outflow : List String) : Except (CommodityError K) (List String) :=
  if n.inputCommodities.isEmpty then (n.leafInput outflow).map ([·]) else .ok n.inputCommodities

/-! ## Checks -/

/-- Several output commodities need conversions and do not go with a storage, and there must be one
conversion for each output commodity. -/
def conversionFault (n : Node K) (outputs : List String) : Option (CommodityError K) :=
  if 1 < outputs.length ∧ n.conversions.isNone then some (.noConversions n.name outputs)
  else if 1 < outputs.length ∧ n.storage.isSome then some (.storage n.name outputs)
  else
    match n.conversions with
    | none => none
    | some conversions =>
      let keys := conversions.keys
      match outputs.find? (!keys.contains ·), keys.find? (!outputs.contains ·) with
      | some commodity, _ => some (.unconverted n.name commodity)
      | none, some commodity => some (.unusedConversion n.name commodity)
      | none, none => none

/-- The commodity of the size of a node or of its storage: as declared, or the only one. -/
def sizeCommodityAmong (n : Node K) (outputs : List String) :
    Except (CommodityError K) (Option String) :=
  if n.hasSize || n.storage.isSome then
    match n.sizeCommodity, outputs with
    | some declared, _ =>
      if outputs.contains declared then .ok (some declared)
      else .error (.sizeCommodity n.name declared outputs)
    | none, [commodity] => .ok (some commodity)
    | none, _ => .error (.noSizeCommodity n.name outputs)
  else .ok none

/-- The checked commodities of a node whose flows have the given ones. -/
def commodities (n : Node K) (catalogue : Catalogue K) (outputNames inflow outflow : List String) :
    Except (CommodityError K) NodeCommodities := do
  let outputs := distinct outflow
  refuse [n.conversionFault outputs]
  let size ← n.sizeCommodityAmong outputs
  refuse [n.outputProportions.bind fun ratios =>
    (proportionFault n.name .output ratios outflow outputNames).map .proportions]
  let _ ← (inflow ++ outflow).mapM fun commodity => (catalogue.unitOf commodity).mapError .unit
  return ⟨inflow, outflow, size⟩

end Node

/-- The commodities of all nodes. The output commodities are settled first, as the input commodities
of leaves follow from them, and then each node is checked. -/
def Graph.commodities {K : Type} [Scalar K] (g : Graph K) (catalogue : Catalogue K) :
    Except (CommodityError K) (List NodeCommodities) := do
  let outflows ← g.nodes.zipIdx.mapM fun (n, i) => n.outflow ((g.edgesFrom i).map (·.commodity))
  let inflows ← (g.nodes.zip outflows).mapM fun (n, outflow) => n.inflow outflow
  (g.nodes.zipIdx.zip (inflows.zip outflows)).mapM fun ((n, i), (inflow, outflow)) =>
    n.commodities catalogue (g.outputNames i) inflow outflow

end SupplyNet
