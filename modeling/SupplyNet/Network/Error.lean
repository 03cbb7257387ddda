import SupplyNet.Linear.Solution
import SupplyNet.Node.Error

/-!
What can go wrong with a network: with its graph, with its conversion into a linear model, with the
levels of its storages, and with a question about it.
-/
set_option autoImplicit false

namespace SupplyNet

/-- What can be wrong with a list of nodes as a graph on a time grid. -/
inductive GraphError
  | duplicate (name : String) (first second : Nat)
  | missing (names : List String)
  | outputAsInput (input node : String)
  | empty
  | seriesLength (node : String) (side : Direction) (length stamps : Nat)
  | seriesGrid (node : String) (side : Direction)
  | disconnected (components : List (List String))
  deriving DecidableEq

def GraphError.message : GraphError → String
  | duplicate name first second =>
    s!"Duplicate node name found: '{name}' at positions {first} and {second}."
  | missing names =>
    "nodes used as input node, but missing in list of nodes passed to Network: " ++ commaList names
  | outputAsInput input node => s!"Output node '{input}' can't be an input of node '{node}'."
  | empty => "Network must have at least one node."
  | seriesLength node side length stamps =>
    s!"Node {node} has an {side.text} flow with length {length}, " ++
      s!"but the Network has {stamps} time stamps."
  | seriesGrid node side =>
    s!"Node {node} has an {side.text} flow with time_coords different from the Network."
  | disconnected components =>
    let texts := components.map fun names => "[" ++ commaList names ++ "]"
    s!"Network is not connected, found {components.length} components: {commaList texts}"

/-- What can keep the linear model of a network from being set up. -/
inductive CompileError (K : Type)
  | unit (e : UnitError)
  | model (e : ModelError K)
  | proportions (e : ProportionError K)
  | mixedInputs (node : String)
  | noConversion (node commodity : String)
  | noSizeCommodity (node : String)
  deriving DecidableEq

/-- A storage that could have been built smaller. -/
inductive LevelError (K : Type)
  | neverEmpty (node : String) (level size : K)
  | neverFull (node : String) (level size : K)
  deriving DecidableEq

inductive QueryError
  | noNode (name : String)
  | noSize (node : String)
  | noStorage (node : String)
  | noEdge (source target : String)
  | notOptimized
  deriving DecidableEq

def QueryError.message : QueryError → String
  | noNode name => s!"Node with name {name} not found."
  | noSize node => s!"Node '{node}' has no size."
  | noStorage node => s!"Node '{node}' has no storage."
  | noEdge source target => s!"Node '{source}' is not an input of node '{target}'."
  | notOptimized => "Network has not been optimized yet."

variable {K : Type} [Scalar K] [ScalarText K]

def CompileError.message : CompileError K → String
  | unit e => e.message
  | model e => e.message
  | proportions e => e.message
  | mixedInputs node =>
    s!"convert_factor of node '{node}' can't have a unit, " ++
      "because its inputs have different commodities."
  | noConversion node commodity => s!"Node '{node}' has no convert factor for '{commodity}'."
  | noSizeCommodity node => s!"Node '{node}' has a size, but no size commodity."

def LevelError.message : LevelError K → String
  | neverEmpty node level size =>
    s!"Storage of node '{node}' is never empty: minimum level is {ScalarText.plain level}, " ++
      s!"size is {ScalarText.plain size}."
  | neverFull node level size =>
    s!"Storage of node '{node}' is never full: maximum level is {ScalarText.plain level}, " ++
      s!"size is {ScalarText.plain size}."

end SupplyNet
