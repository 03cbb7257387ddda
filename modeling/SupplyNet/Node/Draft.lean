import SupplyNet.Fault
import SupplyNet.Node.Basic
import SupplyNet.Node.Proportions

/-!
Drafts: nodes as they are described, before their parameters have been checked.
-/
set_option autoImplicit false

namespace SupplyNet

/-- One commodity for all inputs, or one for each of them in their order. -/
inductive InputCommodities
  | single (commodity : String)
  | perInput (commodities : List String)
  deriving DecidableEq

structure DraftInputs where
  names : List String
  commodities : InputCommodities
  deriving DecidableEq

structure Draft (K : Type) [Scalar K] where
  name : String
  role : Role DraftInputs K
  costs : Option (Quantity K) := none
  convertFactor : Option (Quantity K) := none
  conversions : Option (Keyed (Conversion K)) := none
  inputProportions : Option (Keyed (Quantity K)) := none
  outputProportions : Option (Keyed (Quantity K)) := none
  sizeCommodity : Option String := none
  outputCommodity : Option String := none
  storage : Option (Storage K) := none
  inputFlowCosts : Option (Quantity K) := none

namespace Draft

variable {K : Type} [Scalar K]

def inputs (d : Draft K) : List String :=
  match d.role.inputs? with
  | some inputs => inputs.names
  | none => []

/-! ## Inputs -/

/-- The first input that is the node itself or was named before. -/
def inputFault (name : String) (seen : List String) : List String → Option (NodeError K)
  | [] => none
  | input :: r =>
    if input = name then some (.ownInput name)
    else if input ∈ seen then some (.repeatedInput name input)
    else inputFault name (input :: seen) r

def resolveInputs (name : String) (inputs : DraftInputs) : Except (NodeError K) Inlets :=
  match inputs.commodities with
  | .single commodity => .ok ⟨inputs.names.map (⟨·, commodity⟩), some commodity⟩
  | .perInput commodities =>
    if inputs.names = [] ∧ commodities.length ≤ 1 then .ok ⟨[], commodities.head?⟩
    else if commodities.length = inputs.names.length then
      .ok ⟨inputs.names.zipWith Inlet.mk commodities, none⟩
    else .error (.commodityCount name commodities inputs.names)

/-! ## Checks of single parameters -/

/-- Capacity factors are plain numbers from 0 to 1, given flows finite numbers. -/
def profileFaults (d : Draft K) : List (Option (NodeError K)) :=
  match d.role with
  | .scalableInput factors =>
    [factors.unit.bind fun unit =>
        faultIf (!unit.isDimensionless) (.profileUnit d.name unit.symbol),
      faultIf (!factors.values.all fun v => 0 ≤ v && v ≤ 1) (.profileRange d.name)]
  | role =>
    [role.profile?.bind fun flow =>
      faultIf (flow.values.any (!Scalar.isFinite ·)) (.profileNotFinite d.name)]

def negativeFault (q : Option (Quantity K)) (fault : Quantity K → NodeError K) :
    Option (NodeError K) :=
  q.bind fun q => faultIf (q.magnitude < 0) (fault q)

/-- Parameters that do not go with the kind of the node. -/
def kindFaults (d : Draft K) : List (Option (NodeError K)) :=
  let kind := d.role.kind
  let genericOnly (isSet : Bool) (parameter : GenericParameter) : Option (NodeError K) :=
    faultIf (kind ≠ .generic && isSet) (.genericOnly parameter d.name kind)
  [genericOnly d.convertFactor.isSome .convertFactor,
    genericOnly d.conversions.isSome .convertFactors,
    genericOnly d.inputFlowCosts.isSome .inputFlowCosts,
    genericOnly d.outputCommodity.isSome .outputCommodity,
    faultIf (kind.isInput && d.inputProportions.isSome) (.inputProportions d.name),
    faultIf (kind.isOutput && d.outputProportions.isSome) (.outputProportions d.name)]

def conversionFaults (d : Draft K) (commodities : List String) : List (Option (NodeError K)) :=
  let entries := match d.conversions with
    | some conversions => conversions.entries
    | none => []
  [faultIf (d.conversions.isSome && d.convertFactor.isSome) (.twoConversions d.name),
    faultIf (d.conversions.isSome && entries.isEmpty) (.noConversions d.name)] ++
  entries.map fun e =>
    faultIf (commodities ≠ [] && !commodities.contains e.2.source)
      (.conversionSource d.name e.1 e.2.source)

/-- Several input commodities need proportions or conversions. -/
def inputProportionFault (d : Draft K) (commodities : List String) : Option (NodeError K) :=
  match d.inputProportions with
  | some ratios =>
    (proportionFault d.name .input ratios commodities d.inputs).map .proportions
  | none =>
    faultIf (1 < (distinct commodities).length && d.conversions.isNone) (.noProportions d.name)

/-- The faults of a draft whose inputs have the given commodities, in the order in which they are
reported. -/
def faults (d : Draft K) (commodities : List String) : List (Option (NodeError K)) :=
  let several : Bool := 1 < (distinct commodities).length
  let isFixedOutput : Bool := d.role.kind = .fixedOutput
  d.profileFaults ++
    [negativeFault d.costs (.negativeCosts d.name),
      faultIf (isFixedOutput && several) (.severalInputCommodities d.name commodities),
      faultIf (isFixedOutput && d.storage.isSome) (.storageOnOutput d.name)] ++
    d.kindFaults ++ d.conversionFaults commodities ++
    [d.inputProportionFault commodities,
      negativeFault d.inputFlowCosts (.negativeFlowCosts d.name),
      faultIf (d.inputFlowCosts.isSome && several) (.flowCostsCommodities d.name commodities)]

/-- The node that a draft describes. -/
def build (d : Draft K) : Except (NodeError K) (Node K) := do
  refuse
    [faultIf (d.role.kind = .scalableOutput) (.notImplemented d.name),
      faultIf d.name.isEmpty .unnamed,
      inputFault d.name [] d.inputs]
  let node : Node K :=
    { d with
      role := ← d.role.mapInputs (resolveInputs d.name)
      convertFactor := d.convertFactor.getD (.plain 1) }
  refuse (d.faults node.inputCommodities)
  return node

end Draft

end SupplyNet
