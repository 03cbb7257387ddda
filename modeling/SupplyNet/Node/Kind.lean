/-!
The kinds of nodes, and the parts that they play in a network.
-/
set_option autoImplicit false

namespace SupplyNet

/-- A fixed input is a source with a known flow, a scalable input one whose flow grows with its
size, a fixed output a sink with a known flow. The flows of generic nodes follow from their
neighbours. Scalable outputs cannot be built yet. -/
inductive NodeKind
  | fixedInput
  | scalableInput
  | fixedOutput
  | scalableOutput
  | generic
  deriving DecidableEq

inductive NodePart
  | input
  | output
  | generic
  deriving DecidableEq

namespace NodeKind

def part : NodeKind → NodePart
  | fixedInput | scalableInput => .input
  | fixedOutput | scalableOutput => .output
  | generic => .generic

def isInput (k : NodeKind) : Bool := k.part = .input

def isOutput (k : NodeKind) : Bool := k.part = .output

def text : NodeKind → String
  | fixedInput => "FixedInput"
  | scalableInput => "ScalableInput"
  | fixedOutput => "FixedOutput"
  | scalableOutput => "ScalableOutput"
  | generic => "Generic"

def all : List NodeKind := [fixedInput, scalableInput, fixedOutput, scalableOutput, generic]

end NodeKind

def NodePart.text : NodePart → String
  | input => "Input"
  | output => "Output"
  | generic => "Generic"

end SupplyNet
