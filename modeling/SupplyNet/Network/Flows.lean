import SupplyNet.Network.Commodities

/-!
The variables of a network and the flows that they make up. The flow over an edge is one series of
columns, which leaves the source and enters the target.
-/
set_option autoImplicit false

namespace SupplyNet

/-- One expression for each time step. -/
abbrev Flow (K : Type) := Array (LinearExpr K)

/-- A flow on one side of a node. Without a neighbour it comes out of nowhere or goes there. -/
structure Stream (K : Type) where
  neighbour : Option String
  commodity : String
  flow : Flow K

/-- The columns of a storage, of which all but the size are one for each time step. -/
structure StorageVars where
  size : Var
  level : Array Var
  charge : Array Var
  discharge : Array Var

/-- The columns and flows of a node. -/
structure NodeFlows (K : Type) where
  size : Option Var
  sizeCommodity : Option String
  storage : Option StorageVars
  inflows : List (Stream K)
  outflows : List (Stream K)

namespace Flow

variable {K : Type} [Scalar K]

def atStep (f : Flow K) (t : Nat) : LinearExpr K := f[t]?.getD 0

def ofVars (vs : Array Var) : Flow K := vs.map .ofVar

def ofValues (values : List K) : Flow K := (values.map .ofConst).toArray

/-- The capacity factors of a node times its size. -/
def ofFactors (size : Option Var) (factors : List K) : Flow K :=
  (factors.map fun factor => match size with
    | some v => .term v factor
    | none => 0).toArray

/-- The sum of several flows in one time step. -/
def sumAt (flows : List (Flow K)) (t : Nat) : LinearExpr K := .sum (flows.map fun f => f.atStep t)

/-- The sum over all time steps. -/
def total (f : Flow K) : LinearExpr K := f.foldr (fun e total => total + e) 0

end Flow

/-- Takes a step for each item in turn and hands the state on. -/
def runEach {σ α β ε : Type} (f : σ → α → Except ε (β × σ)) (s : σ) :
    List α → Except ε (List β × σ)
  | [] => .ok ([], s)
  | a :: r => do
    let (b, s) ← f s a
    let (bs, s) ← runEach f s r
    return (b :: bs, s)

/-- What a node adds to the model by itself, with one input flow for each inlet. A generic node
without inlets has none yet. -/
structure Declared (K : Type) where
  size : Option Var
  inflows : List (Flow K)
  storage : Option StorageVars

namespace Node

variable {K : Type} [Scalar K]

def addScalar (m : Model K) (name : String) : Except (CompileError K) (Var × Model K) :=
  (m.addScalar name (some 0)).mapError .model

def addSeries (m : Model K) (name : String) (steps : Nat) :
    Except (CompileError K) (Array Var × Model K) :=
  (m.addSeries name (some 0) steps).mapError .model

/-- A flow that is a variable of its own. -/
def addFlow (m : Model K) (name : String) (steps : Nat) :
    Except (CompileError K) (Flow K × Model K) := do
  let (vs, m) ← addSeries m name steps
  return (.ofVars vs, m)

def addStorage (m : Model K) (node : String) (steps : Nat) :
    Except (CompileError K) (StorageVars × Model K) := do
  let (size, m) ← addScalar m s!"size_storage_{node}"
  let (level, m) ← addSeries m s!"storage_level_{node}" steps
  let (charge, m) ← addSeries m s!"storage_charge_{node}" steps
  let (discharge, m) ← addSeries m s!"storage_discharge_{node}" steps
  return (⟨size, level, charge, discharge⟩, m)

/-- The values of a profile in the unit of the first of some commodities. -/
def flowIn (catalogue : Catalogue K) (commodities : List String) (profile : Series K) :
    Except (CompileError K) (Flow K) := do
  let unit ← (catalogue.unitOf (commodities.headD "")).mapError .unit
  return .ofValues (← (profile.valuesIn unit).mapError .unit)

def addInflows (n : Node K) (catalogue : Catalogue K) (steps : Nat) (commodities : NodeCommodities)
    (size : Option Var) (m : Model K) : Except (CompileError K) (List (Flow K) × Model K) :=
  match n.role with
  | .fixedInput flow => do return ([← flowIn catalogue commodities.inflow flow], m)
  | .scalableInput factors => do
    return ([.ofFactors size (← (factors.valuesIn .one).mapError .unit)], m)
  | _ => runEach (fun m inlet => addFlow m s!"flow_{inlet.source}_{n.name}" steps) m n.inlets

/-- The size of a node, if it has one. -/
def addSize (n : Node K) (m : Model K) : Except (CompileError K) (Option Var × Model K) :=
  if n.hasSize then (addScalar m s!"size_{n.name}").map fun (v, m) => (some v, m)
  else .ok (none, m)

/-- The storage of a node, if it has one. -/
def addOwnStorage (n : Node K) (steps : Nat) (m : Model K) :
    Except (CompileError K) (Option StorageVars × Model K) :=
  if n.storage.isSome then (addStorage m n.name steps).map fun (s, m) => (some s, m)
  else .ok (none, m)

/-- The size, the input flows and the storage of a node. -/
def declare (catalogue : Catalogue K) (steps : Nat) (m : Model K)
    (item : Node K × NodeCommodities) : Except (CompileError K) (Declared K × Model K) := do
  let (n, commodities) := item
  let (size, m) ← n.addSize m
  let (inflows, m) ← n.addInflows catalogue steps commodities size m
  let (storage, m) ← n.addOwnStorage steps m
  return (⟨size, inflows, storage⟩, m)

/-- Given flows, or one of its own under a name if there are none. -/
def orOwnFlow (name : String) (steps : Nat) (given : List (Flow K)) (m : Model K) :
    Except (CompileError K) (List (Flow K) × Model K) :=
  if given.isEmpty then (addFlow m name steps).map fun (flow, m) => ([flow], m)
  else .ok (given, m)

/-- The flows out of a node: its profile, those over the edges that leave it, or its own. -/
def addOutflows (n : Node K) (catalogue : Catalogue K) (steps : Nat)
    (commodities : NodeCommodities) (edgeFlows : List (Flow K)) (m : Model K) :
    Except (CompileError K) (List (Flow K) × Model K) :=
  match n.role with
  | .fixedOutput _ flow => do return ([← flowIn catalogue commodities.outflow flow], m)
  | _ => orOwnFlow s!"flow_{n.name}" steps edgeFlows m

/-- Each flow with its commodity and its neighbour, as far as there are any. -/
def streams (neighbours commodities : List String) (flows : List (Flow K)) : List (Stream K) :=
  (commodities.zip flows).zipIdx.map fun ((commodity, flow), i) => ⟨neighbours[i]?, commodity, flow⟩

/-- The flows of a node, given those over the edges that leave it. -/
def bind (catalogue : Catalogue K) (steps : Nat) (m : Model K) (n : Node K)
    (commodities : NodeCommodities) (declared : Declared K) (outputNames : List String)
    (edgeFlows : List (Flow K)) : Except (CompileError K) (NodeFlows K × Model K) := do
  let (outflows, m) ← n.addOutflows catalogue steps commodities edgeFlows m
  let (inflows, m) ← orOwnFlow s!"input_flow_{n.name}" steps declared.inflows m
  return (⟨declared.size, commodities.size, declared.storage,
    streams n.inputs commodities.inflow inflows,
    streams outputNames commodities.outflow outflows⟩, m)

end Node

namespace Graph

variable {K : Type} [Scalar K]

/-- Each edge with the input flow of its target in its slot. -/
def wires (g : Graph K) (declared : List (Declared K)) : List (Edge × Flow K) :=
  declared.zipIdx.flatMap fun (d, target) => (g.edges.filter (·.target = target)).zip d.inflows

/-- Adds the variables of all nodes to a model: first what each node declares by itself, then the
flows of leaves. -/
def addFlows (g : Graph K) (catalogue : Catalogue K) (steps : Nat)
    (commodities : List NodeCommodities) (m : Model K) :
    Except (CompileError K) (List (NodeFlows K) × Model K) := do
  let (declared, m) ← runEach (Node.declare catalogue steps) m (g.nodes.zip commodities)
  let wires := g.wires declared
  let items := (g.nodes.zip (commodities.zip declared)).zipIdx
  runEach (fun m ((n, c, d), i) =>
    let edgeFlows := (wires.filter (·.1.source = i)).map Prod.snd
    n.bind catalogue steps m c d (g.outputNames i) edgeFlows) m items

end Graph

end SupplyNet
