import SupplyNet.Keyed
import SupplyNet.Node.Storage
import SupplyNet.Time.Series

/-!
Nodes: the technologies and junctions of a network, each with the nodes that it takes its input
from.
-/
set_option autoImplicit false

namespace SupplyNet

/-- What a node does, with its given flow or its capacity factors, and with its inputs in a form of
their own. -/
inductive Role (Inputs K : Type)
  | fixedInput (flow : Series K)
  | scalableInput (factors : Series K)
  | fixedOutput (inputs : Inputs) (flow : Series K)
  | scalableOutput (inputs : Inputs) (profile : Series K)
  | generic (inputs : Inputs)

namespace Role

variable {Inputs K : Type}

def kind : Role Inputs K → NodeKind
  | fixedInput _ => .fixedInput
  | scalableInput _ => .scalableInput
  | fixedOutput _ _ => .fixedOutput
  | scalableOutput _ _ => .scalableOutput
  | generic _ => .generic

def inputs? : Role Inputs K → Option Inputs
  | fixedInput _ | scalableInput _ => none
  | fixedOutput inputs _ | scalableOutput inputs _ | generic inputs => some inputs

def profile? : Role Inputs K → Option (Series K)
  | fixedInput flow | fixedOutput _ flow => some flow
  | scalableInput factors => some factors
  | scalableOutput _ profile => some profile
  | generic _ => none

def mapInputs {ε Inputs' : Type} (f : Inputs → Except ε Inputs') :
    Role Inputs K → Except ε (Role Inputs' K)
  | fixedInput flow => .ok (fixedInput flow)
  | scalableInput factors => .ok (scalableInput factors)
  | fixedOutput inputs flow => (f inputs).map (fixedOutput · flow)
  | scalableOutput inputs profile => (f inputs).map (scalableOutput · profile)
  | generic inputs => (f inputs).map generic

end Role

/-- The flow that a node takes from another one. -/
structure Inlet where
  source : String
  commodity : String
  deriving DecidableEq

/-- Without inlets a node has one input flow out of nowhere, whose commodity may be declared. -/
structure Inlets where
  edges : List Inlet
  leaf : Option String
  deriving DecidableEq

/-- Of each unit of an input commodity come so many units of an output commodity. -/
structure Conversion (K : Type) where
  source : String
  factor : Quantity K

/-- Conversions and proportions are under the output commodity and under the commodity or neighbour
they belong to. -/
structure Node (K : Type) [Scalar K] where
  name : String
  role : Role Inlets K
  costs : Option (Quantity K)
  convertFactor : Quantity K
  conversions : Option (Keyed (Conversion K))
  inputProportions : Option (Keyed (Quantity K))
  outputProportions : Option (Keyed (Quantity K))
  sizeCommodity : Option String
  outputCommodity : Option String
  storage : Option (Storage K)
  inputFlowCosts : Option (Quantity K)

namespace Node

variable {K : Type} [Scalar K]

def kind (n : Node K) : NodeKind := n.role.kind

def inlets (n : Node K) : List Inlet :=
  match n.role.inputs? with
  | some inputs => inputs.edges
  | none => []

def inputs (n : Node K) : List String := n.inlets.map (·.source)

/-- One commodity for each inlet, or that of the flow out of nowhere if it is declared. -/
def inputCommodities (n : Node K) : List String :=
  match n.role.inputs? with
  | some inputs =>
    if inputs.edges.isEmpty then inputs.leaf.toList else inputs.edges.map (·.commodity)
  | none => []

def hasCosts (n : Node K) : Bool :=
  match n.costs with
  | some costs => !(costs.magnitude == 0)
  | none => false

/-- A scalable input always has a size, another node only if the size costs something. -/
def hasSize (n : Node K) : Bool := n.kind = .scalableInput || n.hasCosts

end Node

end SupplyNet
