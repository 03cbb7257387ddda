import SupplyNet.Error
import SupplyNet.Linear.SolverChoice
import SupplyNet.Network.Costs

/-!
Networks: a graph of nodes on a time grid with the linear model that it stands for, and the last
solution of the model.
-/
set_option autoImplicit false

namespace SupplyNet

/-- The currency that costs are counted in, the units of the commodities, the solver by its name,
and whether and how exactly the levels of storages are checked after each optimization. -/
structure Config (K : Type) where
  currency : String
  catalogue : Catalogue K
  solver : String
  checksLevels : Bool
  tolerance : K

def Config.standard {K : Type} [Scalar K] : Config K :=
  ⟨"EUR", .standard, "minilp", true, 1e-6⟩

/-- The flows are those of the nodes in the order of the nodes. -/
structure Network (K : Type) [Scalar K] where
  graph : Graph K
  grid : Grid
  config : Config K
  flows : List (NodeFlows K)
  model : Model K
  solution : Option (Solution K)

namespace Network

variable {K : Type} [Scalar K]

/-- The flows of all nodes and the model of a graph. -/
def compile (graph : Graph K) (grid : Grid) (config : Config K)
    (commodities : List NodeCommodities) :
    Except (CompileError K) (List (NodeFlows K) × Model K) := do
  let catalogue := config.catalogue
  let hours : K := grid.hours
  let (flows, model) ← graph.addFlows catalogue grid.size commodities .empty
  let nodes := graph.nodes.zip flows
  let model ← model.addRows (nodes.flatMap fun (n, f) => n.rows catalogue grid.size hours f)
  let currency ← (Measure.Unit.read config.currency).mapError .unit
  let costs ← objective catalogue currency hours nodes
  return (flows, { model with objective := costs })

/-- The network of some nodes, unless they do not make one. -/
def build (nodes : List (Node K)) (grid : Grid) (config : Config K) :
    Except (Error K) (Network K) := do
  let graph ← (Graph.ofNodes nodes).mapError .graph
  (graph.validate grid).mapError .graph
  let commodities ← (graph.commodities config.catalogue).mapError .commodity
  let (flows, model) ← (compile graph grid config commodities).mapError .compile
  return ⟨graph, grid, config, flows, model, none⟩

def validate (n : Network K) : Except (Error K) Unit := (n.graph.validate n.grid).mapError .graph

end Network

end SupplyNet
