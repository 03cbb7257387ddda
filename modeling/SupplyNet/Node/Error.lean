import SupplyNet.Measure.Quantity
import SupplyNet.Node.Kind

/-!
What can be wrong with a storage, with a node, and with the commodities of a node in its network.
-/
set_option autoImplicit false

namespace SupplyNet

def commaList (l : List String) : String := ", ".intercalate l

inductive StorageError (K : Type)
  | storageLoss (loss : K)
  | chargingLoss (loss : K)
  | speed (speed : K)
  | costs (costs : Quantity K)
  deriving DecidableEq

inductive Direction
  | input
  | output
  deriving DecidableEq

def Direction.text : Direction → String
  | input => "input"
  | output => "output"

/-- What can be wrong with the proportions of the flows on one side of a node. -/
inductive ProportionError (K : Type)
  | keys (node : String) (side : Direction) (commodities neighbours : List String)
  | notPositive (node : String) (side : Direction) (key : String) (ratio : Quantity K)
  | noFlow (node : String) (side : Direction) (key : String)
  deriving DecidableEq

/-- A parameter that generic nodes alone have. -/
inductive GenericParameter
  | convertFactor
  | convertFactors
  | inputFlowCosts
  | outputCommodity
  deriving DecidableEq

def GenericParameter.text : GenericParameter → String
  | convertFactor => "convert_factor"
  | convertFactors => "convert_factors"
  | inputFlowCosts => "input_flow_costs"
  | outputCommodity => "output_commodity"

/-- What can be wrong with a node by itself. -/
inductive NodeError (K : Type)
  | notImplemented (node : String)
  | unnamed
  | ownInput (node : String)
  | repeatedInput (node input : String)
  | commodityCount (node : String) (commodities inputs : List String)
  | profileUnit (node unit : String)
  | profileRange (node : String)
  | profileNotFinite (node : String)
  | negativeCosts (node : String) (costs : Quantity K)
  | severalInputCommodities (node : String) (commodities : List String)
  | storageOnOutput (node : String)
  | genericOnly (parameter : GenericParameter) (node : String) (kind : NodeKind)
  | inputProportions (node : String)
  | outputProportions (node : String)
  | twoConversions (node : String)
  | noConversions (node : String)
  | conversionSource (node output input : String)
  | proportions (e : ProportionError K)
  | noProportions (node : String)
  | negativeFlowCosts (node : String) (costs : Quantity K)
  | flowCostsCommodities (node : String) (commodities : List String)
  deriving DecidableEq

/-- What can be wrong with the commodities of a node between its neighbours. -/
inductive CommodityError (K : Type)
  | noLeafOutput (node : String)
  | declaredOutput (node declared : String) (commodities : List String)
  | noLeafInput (node : String) (commodities : List String)
  | noConversions (node : String) (commodities : List String)
  | storage (node : String) (commodities : List String)
  | unconverted (node commodity : String)
  | unusedConversion (node commodity : String)
  | sizeCommodity (node declared : String) (commodities : List String)
  | noSizeCommodity (node : String) (commodities : List String)
  | proportions (e : ProportionError K)
  | unit (e : UnitError)
  deriving DecidableEq

/-! ## Messages -/

variable {K : Type} [Scalar K] [ScalarText K]

def StorageError.message : StorageError K → String
  | .storageLoss x => s!"storage_loss must be in [0, 1), got {ScalarText.plain x}."
  | .chargingLoss x => s!"charging_loss must be in [0, 1), got {ScalarText.plain x}."
  | .speed x => s!"max_charging_speed must be in (0, 1], got {ScalarText.plain x}."
  | .costs q => s!"Storage costs must not be negative, got {q.text}."

def ProportionError.message : ProportionError K → String
  | keys node side commodities neighbours =>
    s!"wrong parameter for node {node}: {side.text}_proportions needs keys matching " ++
      s!"either the {side.text} commodities ({commaList commodities}) " ++
      s!"or the {side.text} nodes ({commaList neighbours})"
  | notPositive node side key ratio =>
    s!"wrong parameter for node {node}: {side.text}_proportions must be positive, " ++
      s!"got {ratio.text} for '{key}'"
  | noFlow node side key =>
    s!"wrong parameter for node {node}: no {side.text} flow matches proportion key '{key}'"

def NodeError.message : NodeError K → String
  | notImplemented node => s!"NodeKind::ScalableOutput is not implemented yet (node '{node}')."
  | unnamed => "Node name must not be empty."
  | ownInput node => s!"Node '{node}' can't be its own input."
  | repeatedInput node input => s!"Node '{node}' has input '{input}' more than once."
  | commodityCount node commodities inputs =>
    s!"invalid number of input_commodities provided for node '{node}': " ++
      s!"[{commaList commodities}], does not match number of inputs: {commaList inputs}"
  | profileUnit node unit =>
    s!"input_profile of node '{node}' must be dimensionless, got unit {unit}."
  | profileRange node =>
    s!"invalid values in input_profile of node '{node}': " ++
      "must be capacity factors, i.e. between 0 and 1"
  | profileNotFinite node => s!"Flow of node '{node}' contains non-finite values."
  | negativeCosts node costs => s!"Costs of node '{node}' must not be negative, got {costs.text}."
  | severalInputCommodities node commodities =>
    s!"Fixed output node '{node}' must have a single input commodity, " ++
      s!"got: {commaList commodities}."
  | storageOnOutput node => s!"Storage is not supported for fixed output node '{node}'."
  | genericOnly parameter node kind =>
    s!"Parameter {parameter.text} is only supported by generic nodes, " ++
      s!"but node '{node}' is of kind {kind.text}."
  | inputProportions node => s!"Input node '{node}' does not support input_proportions."
  | outputProportions node => s!"Output node '{node}' does not support output_proportions."
  | twoConversions node =>
    s!"Node '{node}': convert_factors can't be combined with convert_factor."
  | noConversions node => s!"Node '{node}': convert_factors must not be empty."
  | conversionSource node output input =>
    s!"Node '{node}': convert factor for '{output}' refers to input commodity '{input}', " ++
      "which is not an input commodity of the node."
  | proportions e => e.message
  | noProportions node =>
    s!"Node '{node}' has different input_commodities, " ++
      "but no input_proportions or convert_factors provided."
  | negativeFlowCosts node costs =>
    s!"input_flow_costs of node '{node}' must not be negative, got {costs.text}."
  | flowCostsCommodities node commodities =>
    s!"input_flow_costs require a single input commodity, " ++
      s!"but node '{node}' has: {commaList commodities}."

def CommodityError.message : CommodityError K → String
  | noLeafOutput node =>
    s!"Can't determine the output commodity of node '{node}', which has no output nodes: " ++
      "set output_commodity."
  | declaredOutput node declared commodities =>
    s!"output_commodity '{declared}' of node '{node}' doesn't match the commodities " ++
      s!"of its outputs: {commaList commodities}."
  | noLeafInput node commodities =>
    s!"Input node '{node}' must have a single output commodity, got: {commaList commodities}."
  | noConversions node commodities =>
    s!"Node '{node}' has several output commodities ({commaList commodities}), " ++
      "which requires convert_factors."
  | storage node commodities =>
    s!"Storage of node '{node}' requires a single output commodity, " ++
      s!"got: {commaList commodities}."
  | unconverted node commodity =>
    s!"Node '{node}' has no convert factor for output commodity '{commodity}'."
  | unusedConversion node commodity =>
    s!"Convert factor for '{commodity}' doesn't match any output commodity of node '{node}'."
  | sizeCommodity node declared commodities =>
    s!"size_commodity '{declared}' of node '{node}' is not one of its output commodities: " ++
      s!"{commaList commodities}."
  | noSizeCommodity node commodities =>
    s!"Node '{node}' has several output commodities ({commaList commodities}), " ++
      "set size_commodity."
  | proportions e => e.message
  | unit e => e.message

end SupplyNet
