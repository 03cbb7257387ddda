import Mathlib
import SupplyNet.Proofs.Network.Compile

/-!
The streams of a node. There is one for each inlet and for each outlet, with the flow over that
edge; a side without edges has one stream, with the flow of the leaf.
-/
set_option autoImplicit false

namespace SupplyNet

variable {K : Type} [Scalar K]

namespace Node

/-- The input flow of a node without inlets. -/
def leafInflow (catalogue : Catalogue K) (n : Node K) (commodity : String) (m : Model K) :
    Except (CompileError K) (Flow K) :=
  match n.role with
  | .fixedInput flow => flowIn catalogue [commodity] flow
  | .scalableInput factors =>
    ((factors.valuesIn .one).mapError .unit).map fun values => .ofFactors (n.sizeIn m) values
  | _ => .ok (m.flowOf (.inflow n.name))

/-- The output flow of a node without outlets. -/
def leafOutflow (catalogue : Catalogue K) (n : Node K) (commodity : String) (m : Model K) :
    Except (CompileError K) (Flow K) :=
  match n.role with
  | .fixedOutput _ flow => flowIn catalogue [commodity] flow
  | _ => .ok (m.flowOf (.outflow n.name))

theorem role_of_fixedOutput {n : Node K} (h : n.kind = .fixedOutput) :
    ∃ inputs flow, n.role = .fixedOutput inputs flow := by
  unfold kind at h
  cases hr : n.role with
  | fixedOutput inputs flow => exact ⟨inputs, flow, rfl⟩
  | fixedInput flow => simp [hr, Role.kind] at h
  | scalableInput factors => simp [hr, Role.kind] at h
  | scalableOutput inputs profile => simp [hr, Role.kind] at h
  | generic inputs => simp [hr, Role.kind] at h

theorem role_of_isInput {n : Node K} (h : n.kind.isInput) :
    (∃ flow, n.role = .fixedInput flow) ∨ ∃ factors, n.role = .scalableInput factors := by
  unfold kind at h
  cases hr : n.role with
  | fixedInput flow => exact Or.inl ⟨flow, rfl⟩
  | scalableInput factors => exact Or.inr ⟨factors, rfl⟩
  | fixedOutput inputs flow => simp [hr, Role.kind, NodeKind.isInput, NodeKind.part] at h
  | scalableOutput inputs profile => simp [hr, Role.kind, NodeKind.isInput, NodeKind.part] at h
  | generic inputs => simp [hr, Role.kind, NodeKind.isInput, NodeKind.part] at h

theorem inputCommodities_of_inlets {n : Node K} (h : n.inlets ≠ []) :
    n.inputCommodities = n.inlets.map (·.commodity) := by
  unfold inlets at h ⊢
  unfold inputCommodities
  cases hr : n.role.inputs? with
  | none => simp [hr] at h
  | some inputs =>
    simp only [hr] at h
    dsimp only
    rw [if_neg (by simpa using h)]

/-- A node without inlets has one input commodity at most. -/
theorem inputCommodities_of_leaf {n : Node K} (h : n.inlets = []) :
    n.inputCommodities = [] ∨ ∃ commodity, n.inputCommodities = [commodity] := by
  unfold inlets at h
  unfold inputCommodities
  cases hr : n.role.inputs? with
  | none => exact Or.inl rfl
  | some inputs =>
    simp only [hr] at h
    simp only [h, List.isEmpty_nil, if_true]
    cases inputs.leaf with
    | none => exact Or.inl rfl
    | some commodity => exact Or.inr ⟨commodity, rfl⟩

/-! ## Commodities -/

section Commodities

variable {n : Node K} {catalogue : Catalogue K} {served : List Outlet} {c : NodeCommodities}

theorem inflow_of_inlets (hc : n.settle catalogue served = .ok c) (h : n.inlets ≠ []) :
    c.inflow = n.inlets.map (·.commodity) := by
  have hi := inflow_eq_ok_iff.1 (settle_eq_ok_iff.1 hc).2.1
  rw [inputCommodities_of_inlets h, if_neg (by simpa using h)] at hi
  exact hi

theorem inflow_of_leaf (hc : n.settle catalogue served = .ok c) (h : n.inlets = []) :
    ∃ commodity, c.inflow = [commodity] := by
  have hi := inflow_eq_ok_iff.1 (settle_eq_ok_iff.1 hc).2.1
  rcases inputCommodities_of_leaf h with he | ⟨commodity, he⟩
  · rw [if_pos he] at hi
    obtain ⟨commodity, -, hi⟩ := hi
    exact ⟨commodity, hi⟩
  · rw [he, if_neg (by simp)] at hi
    exact ⟨commodity, hi⟩

theorem outflow_of_served (hc : n.settle catalogue served = .ok c) (h : served ≠ []) :
    c.outflow = served.map (·.commodity) := by
  have ho := (outflow_eq_ok_iff.1 (settle_eq_ok_iff.1 hc).1).1
  rw [if_neg (by simpa using h)] at ho
  exact ho

theorem outflow_of_leaf (hc : n.settle catalogue served = .ok c) (h : served = []) :
    ∃ commodity, n.leafOutput = .ok commodity ∧ c.outflow = [commodity] := by
  have ho := (outflow_eq_ok_iff.1 (settle_eq_ok_iff.1 hc).1).1
  rw [h, List.map_nil, if_pos rfl] at ho
  exact ho

end Commodities

/-! ## Streams -/

/-- One stream for each inlet, or that of the leaf. -/
def inStreams (catalogue : Catalogue K) (n : Node K) (c : NodeCommodities) (m : Model K) :
    Except (CompileError K) (List (Stream K)) :=
  if n.inlets = [] then
    (n.leafInflow catalogue (c.inflow.headD "") m).map fun flow =>
      [⟨none, c.inflow.headD "", flow⟩]
  else
    .ok <| n.inlets.map fun inlet =>
      ⟨some inlet.source, inlet.commodity, m.flowOf (.edge inlet.source n.name)⟩

/-- One stream for each outlet, or that of the leaf. -/
def outStreams (catalogue : Catalogue K) (n : Node K) (served : List Outlet) (c : NodeCommodities)
    (m : Model K) : Except (CompileError K) (List (Stream K)) :=
  if served = [] then
    (n.leafOutflow catalogue (c.outflow.headD "") m).map fun flow =>
      [⟨none, c.outflow.headD "", flow⟩]
  else
    .ok <| served.map fun o => ⟨some o.target, o.commodity, m.flowOf (.edge n.name o.target)⟩

omit [Scalar K] in
theorem streams_map {α : Type} (l : List α) (neighbour commodity : α → String) (flow : α → Flow K) :
    streams (l.map neighbour) (l.map commodity) (l.map flow) =
      l.map fun a => ⟨some (neighbour a), commodity a, flow a⟩ := by
  unfold streams
  apply List.ext_getElem (by simp)
  intro i h₁ h₂
  have hi : i < l.length := by simpa using h₂
  simp [hi]

section FlowsIn

variable {n : Node K} {catalogue : Catalogue K} {served : List Outlet} {c : NodeCommodities}

theorem ownInflows_of_inlets (h : n.inlets ≠ []) (size : Option Var) (m : Model K) :
    n.ownInflows catalogue c size m =
      .ok (n.inlets.map fun inlet => m.flowOf (.edge inlet.source n.name)) := by
  have hk : ¬n.kind.isInput := fun hk => h (inlets_of_isInput hk)
  unfold ownInflows
  cases hr : n.role with
  | fixedInput flow => exact absurd (by rw [kind, hr]; rfl) hk
  | scalableInput factors => exact absurd (by rw [kind, hr]; rfl) hk
  | fixedOutput inputs flow => rfl
  | scalableOutput inputs profile => rfl
  | generic inputs => rfl

/-- The input flows of a node without inlets come to that of the leaf. -/
theorem ownInflows_of_leaf (h : n.inlets = []) {commodity : String} (hc : c.inflow = [commodity])
    (m : Model K) :
    ((n.ownInflows catalogue c (n.sizeIn m) m).map fun inflows =>
        streams [] [commodity] (n.boundInflows inflows m)) =
      (n.leafInflow catalogue commodity m).map fun flow => [⟨none, commodity, flow⟩] := by
  unfold ownInflows leafInflow
  cases hr : n.role with
  | fixedInput flow =>
    simp only [hc]
    cases flowIn catalogue [commodity] flow with
    | error e => rfl
    | ok f => rfl
  | scalableInput factors =>
    dsimp only
    cases (factors.valuesIn .one).mapError CompileError.unit with
    | error e => rfl
    | ok values => rfl
  | fixedOutput inputs flow => simp only [h]; rfl
  | scalableOutput inputs profile => simp only [h]; rfl
  | generic inputs => simp only [h]; rfl

theorem inflows_eq (hc : n.settle catalogue served = .ok c) (m : Model K) :
    ((n.ownInflows catalogue c (n.sizeIn m) m).map fun inflows =>
        streams n.inputs c.inflow (n.boundInflows inflows m)) =
      n.inStreams catalogue c m := by
  unfold inStreams
  by_cases h : n.inlets = []
  · obtain ⟨commodity, hin⟩ := inflow_of_leaf hc h
    rw [if_pos h, hin, inputs, h]
    exact ownInflows_of_leaf h hin m
  · have hne : (n.inlets.map fun inlet => m.flowOf (.edge inlet.source n.name)) ≠ [] := by
      simpa using h
    rw [if_neg h, ownInflows_of_inlets h]
    simp only [Except.map, boundInflows, List.isEmpty_iff, if_neg hne]
    rw [inflow_of_inlets hc h]
    exact congrArg _ (streams_map n.inlets _ _ _)

theorem outflows_eq (hc : n.settle catalogue served = .ok c)
    (hk : served ≠ [] → ¬n.kind.isOutput) (m : Model K) :
    ((n.boundOutflows catalogue c (served.map fun o => m.flowOf (.edge n.name o.target)) m).map
        fun outflows => streams (served.map (·.target)) c.outflow outflows) =
      n.outStreams catalogue served c m := by
  unfold outStreams boundOutflows
  by_cases h : served = []
  · obtain ⟨commodity, -, hout⟩ := outflow_of_leaf hc h
    rw [if_pos h, hout]
    unfold leafOutflow
    cases hr : n.role with
    | fixedOutput inputs flow =>
      simp only [h]
      cases hf : flowIn catalogue [commodity] flow with
      | error e => simp only [List.headD_cons, hf]; rfl
      | ok f => simp only [List.headD_cons, hf]; rfl
    | fixedInput flow => simp only [h]; rfl
    | scalableInput factors => simp only [h]; rfl
    | scalableOutput inputs profile => simp only [h]; rfl
    | generic inputs => simp only [h]; rfl
  · have hne : (served.map fun o => m.flowOf (.edge n.name o.target)) ≠ [] := by simpa using h
    have hmap := streams_map served (·.target) (·.commodity)
      fun o => m.flowOf (.edge n.name o.target)
    rw [if_neg h, outflow_of_served hc h]
    cases hr : n.role with
    | fixedOutput inputs flow => exact absurd (by rw [kind, hr]; rfl) (hk h)
    | fixedInput flow => simp only [List.isEmpty_iff, if_neg hne]; exact congrArg _ hmap
    | scalableInput factors => simp only [List.isEmpty_iff, if_neg hne]; exact congrArg _ hmap
    | scalableOutput inputs profile =>
      simp only [List.isEmpty_iff, if_neg hne]
      exact congrArg _ hmap
    | generic inputs => simp only [List.isEmpty_iff, if_neg hne]; exact congrArg _ hmap

/-- The flows of a node are its streams on both sides, with its size and its storage. -/
theorem flowsIn_eq_ok_iff (hc : n.settle catalogue served = .ok c)
    (hk : served ≠ [] → ¬n.kind.isOutput) {m : Model K} {f : NodeFlows K} :
    n.flowsIn catalogue served c m = .ok f ↔ ∃ inflows outflows,
      n.inStreams catalogue c m = .ok inflows ∧ n.outStreams catalogue served c m = .ok outflows ∧
        f = ⟨n.sizeIn m, c.size, n.storageIn m, inflows, outflows⟩ := by
  unfold flowsIn
  rw [← inflows_eq hc m, ← outflows_eq hc hk m, bind_eq_ok_iff]
  constructor
  · rintro ⟨inflows, hi, h⟩
    obtain ⟨outflows, ho, h⟩ := bind_eq_ok_iff.1 h
    exact ⟨_, _, map_eq_ok_iff.2 ⟨inflows, hi, rfl⟩, map_eq_ok_iff.2 ⟨outflows, ho, rfl⟩,
      (Except.ok.inj h).symm⟩
  · rintro ⟨ins, outs, hin, hout, rfl⟩
    obtain ⟨inflows, hi, rfl⟩ := map_eq_ok_iff.1 hin
    obtain ⟨outflows, ho, rfl⟩ := map_eq_ok_iff.1 hout
    exact ⟨inflows, hi, bind_eq_ok_iff.2 ⟨outflows, ho, rfl⟩⟩

end FlowsIn

/-- A node with its flows in a model: its streams, its size and its storage. -/
structure Bound (catalogue : Catalogue K) (served : List Outlet) (m : Model K) (n : Node K)
    (c : NodeCommodities) (f : NodeFlows K) : Prop where
  settled : n.settle catalogue served = .ok c
  size : f.size = n.sizeIn m
  sizeCommodity : f.sizeCommodity = c.size
  storage : f.storage = n.storageIn m
  inflows : n.inStreams catalogue c m = .ok f.inflows
  outflows : n.outStreams catalogue served c m = .ok f.outflows

theorem bound_of_flowsIn {catalogue : Catalogue K} {served : List Outlet} {m : Model K} {n : Node K}
    {c : NodeCommodities} {f : NodeFlows K} (hc : n.settle catalogue served = .ok c)
    (hk : served ≠ [] → ¬n.kind.isOutput) (h : n.flowsIn catalogue served c m = .ok f) :
    n.Bound catalogue served m c f := by
  obtain ⟨inflows, outflows, hin, hout, rfl⟩ := (flowsIn_eq_ok_iff hc hk).1 h
  exact ⟨hc, rfl, rfl, rfl, hin, hout⟩

end Node

namespace Compiled

variable {nodes : List (Node K)} {grid : Grid} {config : Config K} {cs : List NodeCommodities}
variable {groups : List (Rows K)} {net : Network K}

theorem exists_flows (h : Compiled nodes grid config cs groups net) {n : Node K}
    (hn : n ∈ nodes) : ∃ f, (n, f) ∈ nodes.zip net.flows := by
  obtain ⟨i, hi⟩ := List.mem_iff_getElem?.1 hn
  have hlt : i < net.flows.length := h.length_flows ▸ (List.getElem?_eq_some_iff.1 hi).1
  exact ⟨_, List.mem_iff_getElem?.2 ⟨i, getElem?_zip_of hi (List.getElem?_eq_getElem hlt)⟩⟩

theorem bound (h : Compiled nodes grid config cs groups net) {n : Node K} {f : NodeFlows K}
    (hp : (n, f) ∈ nodes.zip net.flows) : ∃ c, n.Bound config.catalogue (outlets nodes n.name)
      (registry nodes grid.size) c f := by
  obtain ⟨i, hi⟩ := List.mem_iff_getElem?.1 hp
  obtain ⟨hn, hf⟩ := List.getElem?_zip_eq_some.1 hi
  dsimp only at hn hf
  have hlt : i < cs.length := h.settled.length_eq ▸ (List.getElem?_eq_some_iff.1 hn).1
  have hc := List.getElem?_eq_getElem hlt
  have hsettled := (forall₂_iff_getElem?.1 h.settled).2 i _ _ hn hc
  have hflows := (forall₂_iff_getElem?.1 h.flows).2 i _ _ (getElem?_zip_of hn hc) hf
  exact ⟨_, Node.bound_of_flowsIn hsettled
    (h.wired.not_isOutput_of_served (List.mem_of_getElem? hn)) hflows⟩

end Compiled

end SupplyNet
