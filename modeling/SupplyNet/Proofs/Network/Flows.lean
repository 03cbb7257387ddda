import Mathlib
import SupplyNet.Proofs.Network.Graph
import SupplyNet.Proofs.Network.Realizes

/-!
The flows of a network, read from the registry of its model. Adding the variables of all nodes
succeeds exactly if the names of all variables differ and the profiles fit the units of their
commodities; the flows of each node are then those that the registry has under its name.
-/
set_option autoImplicit false

namespace SupplyNet

variable {K : Type} [Scalar K]

namespace Node

/-! ## The variables of a node -/

def edgeKeys (n : Node K) : List VariableKey :=
  n.inlets.map fun inlet => .edge inlet.source n.name

def storageKeys (n : Node K) : List VariableKey :=
  [.storageSize n.name, .level n.name, .charge n.name, .discharge n.name]

def declaredKeys (n : Node K) : List VariableKey :=
  (if n.hasSize then [.size n.name] else []) ++ n.edgeKeys ++
    if n.storage.isSome then n.storageKeys else []

/-- The flows of a leaf, given the outlets of the node. -/
def leafKeys (n : Node K) (served : List Outlet) : List VariableKey :=
  (if n.kind = .fixedOutput ∨ served ≠ [] then [] else [.outflow n.name]) ++
    if n.kind.isInput ∨ n.inlets ≠ [] then [] else [.inflow n.name]

/-! ## Reading the flows of a node -/

def sizeIn (m : Model K) (n : Node K) : Option Var :=
  if n.hasSize then some (m.scalarOf (.size n.name)) else none

def storageIn (m : Model K) (n : Node K) : Option StorageVars :=
  if n.storage.isSome then some (m.storageOf n.name) else none

/-- One input flow for each inlet, or the flow of an input node. -/
def ownInflows (catalogue : Catalogue K) (c : NodeCommodities) (n : Node K) (size : Option Var)
    (m : Model K) : Except (CompileError K) (List (Flow K)) :=
  match n.role with
  | .fixedInput flow => (flowIn catalogue c.inflow flow).map ([·])
  | .scalableInput factors =>
    ((factors.valuesIn .one).mapError .unit).map fun values => [.ofFactors size values]
  | _ => .ok (n.inlets.map fun inlet => m.flowOf (.edge inlet.source n.name))

def declaredIn (catalogue : Catalogue K) (c : NodeCommodities) (n : Node K) (m : Model K) :
    Except (CompileError K) (Declared K) :=
  (n.ownInflows catalogue c (n.sizeIn m) m).map fun inflows => ⟨n.sizeIn m, inflows, n.storageIn m⟩

def boundOutflows (catalogue : Catalogue K) (c : NodeCommodities) (n : Node K)
    (edgeFlows : List (Flow K)) (m : Model K) : Except (CompileError K) (List (Flow K)) :=
  match n.role with
  | .fixedOutput _ flow => (flowIn catalogue c.outflow flow).map ([·])
  | _ => .ok (if edgeFlows.isEmpty then [m.flowOf (.outflow n.name)] else edgeFlows)

def boundInflows (n : Node K) (declared : List (Flow K)) (m : Model K) : List (Flow K) :=
  if declared.isEmpty then [m.flowOf (.inflow n.name)] else declared

end Node

/-! ## Which variables there are -/

theorem mem_storageKeys {n : Node K} {k : VariableKey} :
    k ∈ n.storageKeys ↔ k = .storageSize n.name ∨ k = .level n.name ∨ k = .charge n.name ∨
      k = .discharge n.name := by
  simp [Node.storageKeys]

theorem mem_declaredKeys {n : Node K} {k : VariableKey} :
    k ∈ n.declaredKeys ↔ n.hasSize = true ∧ k = .size n.name ∨
      (∃ input ∈ n.inputs, k = .edge input n.name) ∨
      n.storage.isSome = true ∧ k ∈ n.storageKeys := by
  have hedges : k ∈ n.edgeKeys ↔ ∃ input ∈ n.inputs, k = .edge input n.name := by
    unfold Node.edgeKeys Node.inputs
    simp only [List.mem_map, exists_exists_and_eq_and]
    exact exists_congr fun inlet => and_congr_right fun _ => eq_comm
  unfold Node.declaredKeys
  rw [List.mem_append, List.mem_append, hedges, or_assoc]
  refine or_congr ?_ (or_congr Iff.rfl ?_)
  · split
    · next h => simp [h]
    · next h => simp [h]
  · split
    · next h => simp [h]
    · next h => simp [h]

theorem mem_leafKeys {n : Node K} {served : List Outlet} {k : VariableKey} :
    k ∈ n.leafKeys served ↔ k = .outflow n.name ∧ ¬(n.kind = .fixedOutput ∨ served ≠ []) ∨
      k = .inflow n.name ∧ ¬(n.kind.isInput ∨ n.inlets ≠ []) := by
  unfold Node.leafKeys
  rw [List.mem_append]
  split <;> split <;> simp_all

/-! ## Single variables -/

theorem realizes_addScalar (steps : Nat) {k : VariableKey} (hk : k.steps? steps = none)
    (m : Model K) :
    Realizes (fun m => .ok (m.scalarOf k)) m [k.block steps] (Node.addScalar m k.name) := by
  have hb : k.block steps = (⟨k.name, some 0, none⟩ : Block K) := by
    unfold VariableKey.block
    rw [hk]
  unfold Node.addScalar
  rw [m.addScalar_eq, hb]
  split
  · next hmem => exact Or.inl ⟨⟨_, rfl⟩, fun hf => (m.fresh_singleton _).1 hf hmem⟩
  · next hmem =>
    refine ⟨(m.fresh_singleton _).2 hmem, rfl, fun cs => ?_⟩
    have hfind := Model.find?_extend_of_some cs
      (Model.find?_push_self m ⟨k.name, some 0, none⟩ hmem)
    simp only [Model.scalarOf, Model.scalar?, hfind, Block.shape, Option.getD_some]

theorem realizes_addSeries (steps : Nat) {k : VariableKey} (hk : k.steps? steps = some steps)
    (m : Model K) :
    Realizes (fun m => .ok (m.seriesOf k)) m [k.block steps] (Node.addSeries m k.name steps) := by
  have hb : k.block steps = (⟨k.name, some 0, some steps⟩ : Block K) := by
    unfold VariableKey.block
    rw [hk]
  unfold Node.addSeries
  rw [m.addSeries_eq, hb]
  split
  · next hmem => exact Or.inl ⟨⟨_, rfl⟩, fun hf => (m.fresh_singleton _).1 hf hmem⟩
  · next hmem =>
    refine ⟨(m.fresh_singleton _).2 hmem, rfl, fun cs => ?_⟩
    have hfind := Model.find?_extend_of_some cs
      (Model.find?_push_self m ⟨k.name, some 0, some steps⟩ hmem)
    simp only [Model.seriesOf, Model.series?, hfind, Block.shape, Option.getD_some]

theorem realizes_addFlow (steps : Nat) {k : VariableKey} (hk : k.steps? steps = some steps)
    (m : Model K) :
    Realizes (fun m => .ok (m.flowOf k)) m [k.block steps] (Node.addFlow m k.name steps) :=
  (realizes_addSeries steps hk m).map Flow.ofVars

theorem realizes_addStorage (steps : Nat) (n : Node K) (m : Model K) :
    Realizes (fun m => .ok (m.storageOf n.name)) m (n.storageKeys.map (·.block steps))
      (Node.addStorage m n.name steps) := by
  refine Realizes.congr_eq (Realizes.bind (realizes_addScalar steps (k := .storageSize n.name) rfl m)
    fun size _ => Realizes.bind (realizes_addSeries steps (k := .level n.name) rfl _)
    fun level _ => Realizes.bind (realizes_addSeries steps (k := .charge n.name) rfl _)
    fun charge _ => Realizes.map (realizes_addSeries steps (k := .discharge n.name) rfl _)
      fun discharge => (⟨size, level, charge, discharge⟩ : StorageVars)) fun m => rfl

/-! ## The variables that a node declares -/

/-- The only fault that a profile may have is its unit. -/
theorem flowIn_eq_mapError (catalogue : Catalogue K) (commodities : List String)
    (profile : Series K) :
    ∃ x : Except UnitError (Flow K), Node.flowIn catalogue commodities profile = x.mapError .unit := by
  unfold Node.flowIn
  cases hu : catalogue.unitOf (commodities.headD "") with
  | error e => exact ⟨.error e, rfl⟩
  | ok unit =>
    cases hv : profile.valuesIn unit with
    | error e => exact ⟨.error e, by simp [Except.mapError, bind, Except.bind, hv]⟩
    | ok values =>
      exact ⟨.ok (.ofValues values),
        by simp [Except.mapError, bind, Except.bind, hv, pure, Except.pure]⟩

theorem Node.inlets_of_isInput {n : Node K} (h : n.kind.isInput) : n.inlets = [] := by
  unfold Node.kind at h
  unfold Node.inlets
  cases hr : n.role with
  | fixedInput flow => rfl
  | scalableInput factors => rfl
  | fixedOutput inputs flow => simp [hr, Role.kind, NodeKind.isInput, NodeKind.part] at h
  | scalableOutput inputs profile => simp [hr, Role.kind, NodeKind.isInput, NodeKind.part] at h
  | generic inputs => simp [hr, Role.kind, NodeKind.isInput, NodeKind.part] at h

theorem realizes_edges (steps : Nat) (n : Node K) (m : Model K) :
    Realizes (fun m => .ok (n.inlets.map fun inlet => m.flowOf (.edge inlet.source n.name))) m
      (n.edgeKeys.map (·.block steps))
      (runEach (fun m inlet => Node.addFlow m s!"flow_{inlet.source}_{n.name}" steps) m
        n.inlets) := by
  have h := Realizes.runEach (l := n.inlets)
    (fun inlet _ m => realizes_addFlow steps (k := .edge inlet.source n.name) rfl m) m
  have hb : (n.inlets.flatMap fun inlet => [(VariableKey.edge inlet.source n.name).block steps]) =
      (n.edgeKeys.map (·.block steps) : List (Block K)) := by
    unfold Node.edgeKeys
    rw [List.map_map, List.map_eq_flatMap]
    rfl
  rw [hb] at h
  exact h.congr_eq fun m => mapM_ok _ _

theorem realizes_addInflows (catalogue : Catalogue K) (steps : Nat) (c : NodeCommodities)
    (n : Node K) (size : Option Var) (m : Model K) :
    Realizes (n.ownInflows catalogue c size) m (n.edgeKeys.map (·.block steps))
      (n.addInflows catalogue steps c size m) := by
  have hinput : n.kind.isInput → n.edgeKeys.map (·.block steps) = ([] : List (Block K)) := by
    intro h
    unfold Node.edgeKeys
    rw [Node.inlets_of_isInput h]
    rfl
  cases hr : n.role with
  | fixedInput flow =>
    rw [hinput (by simp [Node.kind, hr, Role.kind, NodeKind.isInput, NodeKind.part])]
    obtain ⟨x, hx⟩ := flowIn_eq_mapError catalogue c.inflow flow
    simp only [Node.addInflows, hr, hx]
    refine (Realizes.beside x ([·])).congr_eq fun m' => ?_
    simp only [Node.ownInflows, hr, hx]
  | scalableInput factors =>
    rw [hinput (by simp [Node.kind, hr, Role.kind, NodeKind.isInput, NodeKind.part])]
    simp only [Node.addInflows, hr]
    refine (Realizes.beside (factors.valuesIn .one) fun values =>
      [Flow.ofFactors size values]).congr_eq fun m' => ?_
    simp only [Node.ownInflows, hr]
  | fixedOutput inputs flow =>
    simp only [Node.addInflows, hr]
    refine (realizes_edges steps n m).congr_eq fun m' => ?_
    simp only [Node.ownInflows, hr]
  | scalableOutput inputs profile =>
    simp only [Node.addInflows, hr]
    refine (realizes_edges steps n m).congr_eq fun m' => ?_
    simp only [Node.ownInflows, hr]
  | generic inputs =>
    simp only [Node.addInflows, hr]
    refine (realizes_edges steps n m).congr_eq fun m' => ?_
    simp only [Node.ownInflows, hr]

theorem realizes_addSize (steps : Nat) (n : Node K) (m : Model K) :
    Realizes (fun m => .ok (n.sizeIn m)) m
      ((if n.hasSize then [VariableKey.size n.name] else []).map (·.block steps)) (n.addSize m) := by
  unfold Node.sizeIn Node.addSize
  split
  · exact (realizes_addScalar steps (k := .size n.name) rfl m).map some
  · exact Realizes.pure none

theorem realizes_addOwnStorage (steps : Nat) (n : Node K) (m : Model K) :
    Realizes (fun m => .ok (n.storageIn m)) m
      ((if n.storage.isSome then n.storageKeys else []).map (·.block steps))
      (n.addOwnStorage steps m) := by
  unfold Node.storageIn Node.addOwnStorage
  split
  · exact (realizes_addStorage steps n m).map some
  · exact Realizes.pure none

theorem realizes_declare (catalogue : Catalogue K) (steps : Nat) (n : Node K)
    (c : NodeCommodities) (m : Model K) :
    Realizes (n.declaredIn catalogue c) m (n.declaredKeys.map (·.block steps))
      (Node.declare catalogue steps m (n, c)) := by
  unfold Node.declaredKeys
  rw [List.map_append, List.map_append, List.append_assoc]
  refine Realizes.congr_eq (Realizes.bind (realizes_addSize steps n m) fun size _ =>
    Realizes.bind (realizes_addInflows catalogue steps c n size _) fun inflows _ =>
      Realizes.map (realizes_addOwnStorage steps n _) fun storage =>
        (⟨size, inflows, storage⟩ : Declared K)) fun m' => ?_
  change (n.ownInflows catalogue c (n.sizeIn m') m' >>= fun inflows =>
    Except.ok (⟨n.sizeIn m', inflows, n.storageIn m'⟩ : Declared K)) = _
  unfold Node.declaredIn
  cases n.ownInflows catalogue c (n.sizeIn m') m' with
  | error e => rfl
  | ok inflows => rfl

/-! ## The flows of leaves -/

/-- A flow of its own is added under the same condition under which none is given. -/
theorem realizes_orOwnFlow (steps : Nat) {k : VariableKey} (hk : k.steps? steps = some steps)
    (given : List (Flow K)) {p : Prop} [Decidable p] (hp : given.isEmpty = true ↔ ¬p) (m : Model K) :
    Realizes (fun m => .ok (if given.isEmpty then [m.flowOf k] else given)) m
      ((if p then [] else [k]).map (·.block steps)) (Node.orOwnFlow k.name steps given m) := by
  unfold Node.orOwnFlow
  by_cases hgiven : given.isEmpty
  · simp only [hgiven, if_neg (hp.1 hgiven), if_true]
    exact (realizes_addFlow steps hk m).map ([·])
  · simp only [hgiven, if_pos (not_not.1 (mt hp.2 hgiven))]
    exact Realizes.pure given

theorem realizes_addOutflows (catalogue : Catalogue K) (steps : Nat) (c : NodeCommodities)
    (n : Node K) (edgeFlows : List (Flow K)) (served : List Outlet)
    (hs : edgeFlows.isEmpty = true ↔ served = []) (m : Model K) :
    Realizes (n.boundOutflows catalogue c edgeFlows) m
      ((if n.kind = .fixedOutput ∨ served ≠ [] then [] else [VariableKey.outflow n.name]).map
        (·.block steps))
      (n.addOutflows catalogue steps c edgeFlows m) := by
  have hleaf := realizes_orOwnFlow steps (k := .outflow n.name) rfl edgeFlows
    (p := served ≠ []) (by rw [hs, not_not]) m
  unfold Node.addOutflows
  cases hr : n.role with
  | fixedOutput inputs flow =>
    have hk : n.kind = .fixedOutput := by rw [Node.kind, hr]; rfl
    rw [if_pos (Or.inl hk)]
    obtain ⟨x, hx⟩ := flowIn_eq_mapError catalogue c.outflow flow
    simp only [hx]
    refine (Realizes.beside x ([·])).congr_eq fun m' => ?_
    simp only [Node.boundOutflows, hr, hx]
  | fixedInput | scalableInput | scalableOutput | generic =>
    have hk : n.kind ≠ .fixedOutput := by simp [Node.kind, hr, Role.kind]
    simp only [hk, false_or]
    exact hleaf.congr_eq fun m' => by simp only [Node.boundOutflows, hr]

theorem realizes_leafInflow (steps : Nat) (n : Node K) (declared : List (Flow K))
    (hd : declared.isEmpty = true ↔ ¬n.kind.isInput ∧ n.inlets = []) (m : Model K) :
    Realizes (fun m => .ok (n.boundInflows declared m)) m
      ((if n.kind.isInput ∨ n.inlets ≠ [] then [] else [VariableKey.inflow n.name]).map
        (·.block steps))
      (Node.orOwnFlow s!"input_flow_{n.name}" steps declared m) :=
  realizes_orOwnFlow steps (k := .inflow n.name) rfl declared
    (by rw [hd, not_or, not_not]) m

end SupplyNet
