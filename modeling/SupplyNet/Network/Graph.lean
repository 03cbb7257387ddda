import SupplyNet.Network.Components
import SupplyNet.Network.Error
import SupplyNet.Node.Basic

/-!
Graphs of nodes, with an edge from each node to the nodes that name it as an input.
-/
set_option autoImplicit false

namespace SupplyNet

/-- Nodes are given by their positions, and `slot` is the position of the source among the inputs of
the target. -/
structure Edge where
  source : Nat
  target : Nat
  slot : Nat
  commodity : String
  deriving DecidableEq

/-- The edges are in the order of their targets and slots. -/
structure Graph (K : Type) [Scalar K] where
  nodes : List (Node K)
  edges : List Edge

namespace Graph

variable {K : Type} [Scalar K]

/-! ## Construction -/

/-- The first name that was seen before, with the positions of both. -/
def duplicate? (seen : List String) : List String → Option (String × Nat × Nat)
  | [] => none
  | name :: r =>
    match seen.idxOf? name with
    | some i => some (name, i, seen.length)
    | none => duplicate? (seen ++ [name]) r

def indexIn (nodes : List (Node K)) (name : String) : Option Nat :=
  nodes.findIdx? (·.name = name)

/-- The edges into the node at position `target`. -/
def edgesInto (nodes : List (Node K)) (target : Nat) (node : Node K) : List Edge :=
  node.inlets.zipIdx.filterMap fun (inlet, slot) =>
    (indexIn nodes inlet.source).map (⟨·, target, slot, inlet.commodity⟩)

def edgesOf (nodes : List (Node K)) : List Edge :=
  nodes.zipIdx.flatMap fun (node, target) => edgesInto nodes target node

/-- The first input that is an output node. -/
def outputAsInput? (nodes : List (Node K)) : Option (String × String) :=
  let isOutput (name : String) : Bool := nodes.any fun n => n.name = name && n.kind.isOutput
  nodes.findSome? fun n => (n.inputs.find? isOutput).map (·, n.name)

def ofNodes (nodes : List (Node K)) : Except GraphError (Graph K) :=
  match duplicate? [] (nodes.map (·.name)) with
  | some (name, i, j) => .error (.duplicate name i j)
  | none =>
    match (nodes.flatMap (·.inputs)).filter fun input => (indexIn nodes input).isNone with
    | [] =>
      match outputAsInput? nodes with
      | some (input, node) => .error (.outputAsInput input node)
      | none => .ok ⟨nodes, edgesOf nodes⟩
    | missing => .error (.missing (distinct missing))

/-! ## Access -/

def index? (g : Graph K) (name : String) : Option Nat := indexIn g.nodes name

def node? (g : Graph K) (name : String) : Option (Node K) := g.nodes.find? (·.name = name)

def nameAt (g : Graph K) (i : Nat) : String :=
  match g.nodes[i]? with
  | some node => node.name
  | none => ""

/-- The edges out of a node, in the order of their targets. -/
def edgesFrom (g : Graph K) (i : Nat) : List Edge := g.edges.filter (·.source = i)

def inputNames (g : Graph K) (i : Nat) : List String :=
  (g.edges.filter (·.target = i)).map fun e => g.nameAt e.source

def outputNames (g : Graph K) (i : Nat) : List String :=
  (g.edgesFrom i).map fun e => g.nameAt e.target

/-! ## Validation -/

/-- The first node whose profile is not on the grid. -/
def seriesFault? (g : Graph K) (grid : Grid) : Option GraphError :=
  g.nodes.findSome? fun n =>
    n.role.profile?.bind fun profile =>
      let side : Direction := if n.kind.isOutput then .output else .input
      if profile.values.length ≠ grid.size then
        some (.seriesLength n.name side profile.values.length grid.size)
      else if profile.grid ≠ grid then some (.seriesGrid n.name side)
      else none

/-- The positions that the edges lead from and to. -/
def links (g : Graph K) : List (Nat × Nat) := g.edges.map fun e => (e.source, e.target)

def components (g : Graph K) : List (List Nat) :=
  Components.components g.nodes.length g.links

/-- All nodes must be connected, whatever the directions of the edges. -/
def validateConnected (g : Graph K) : Except GraphError Unit :=
  if 1 < g.components.length then .error (.disconnected (g.components.map (·.map g.nameAt)))
  else .ok ()

/-- A graph must have a node, profiles on the grid of the network, and one component. -/
def validate (g : Graph K) (grid : Grid) : Except GraphError Unit :=
  if g.nodes.isEmpty then .error .empty
  else
    match g.seriesFault? grid with
    | some fault => .error fault
    | none => g.validateConnected

end Graph

end SupplyNet
