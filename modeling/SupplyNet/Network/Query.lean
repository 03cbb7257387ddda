import SupplyNet.Network.Optimum

/-!
Questions about a network: its nodes and edges, and the sizes and flows of its last solution.
-/
set_option autoImplicit false

namespace SupplyNet.Network

variable {K : Type} [Scalar K]

/-! ## Structure -/

def indexOf (n : Network K) (name : String) : Except QueryError Nat :=
  match n.graph.index? name with
  | some i => .ok i
  | none => .error (.noNode name)

def node (n : Network K) (name : String) : Except QueryError (Node K) :=
  match n.graph.node? name with
  | some node => .ok node
  | none => .error (.noNode name)

def inputs (n : Network K) (name : String) : Except QueryError (List String) :=
  (n.indexOf name).map n.graph.inputNames

def outputs (n : Network K) (name : String) : Except QueryError (List String) :=
  (n.indexOf name).map n.graph.outputNames

/-- What a drawing of the network shows: the nodes with their parts and whether they have a storage,
and the edges. -/
structure View where
  nodes : List (String × NodePart × Bool)
  edges : List (String × String)
  deriving DecidableEq

def view (n : Network K) : View :=
  ⟨n.graph.nodes.map fun node => (node.name, node.kind.part, node.storage.isSome),
    n.graph.edges.map fun e => (n.graph.nameAt e.source, n.graph.nameAt e.target)⟩

/-! ## Solved values -/

def solved (n : Network K) : Except QueryError (Solution K) :=
  match n.solution with
  | some s => .ok s
  | none => .error .notOptimized

def flowsAt (n : Network K) (i : Nat) : NodeFlows K :=
  n.flows[i]?.getD ⟨none, none, none, [], []⟩

def size (n : Network K) (name : String) : Except QueryError K := do
  match (n.flowsAt (← n.indexOf name)).size with
  | some v => return (← n.solved).valueOf v
  | none => throw (.noSize name)

def storageSize (n : Network K) (name : String) : Except QueryError K := do
  match (n.flowsAt (← n.indexOf name)).storage with
  | some vars => return (← n.solved).valueOf vars.size
  | none => throw (.noStorage name)

/-- The flow over the edge from one node to another in each time step. -/
def flow (n : Network K) (source target : String) : Except QueryError (Array K) := do
  let i ← n.indexOf source
  let j ← n.indexOf target
  match n.graph.edges.find? fun e => e.source = i && e.target = j with
  | none => throw (.noEdge source target)
  | some edge =>
    let s ← n.solved
    match (n.flowsAt j).inflows[edge.slot]? with
    | some stream => return stream.flow.map s.eval
    | none => return #[]

end SupplyNet.Network
