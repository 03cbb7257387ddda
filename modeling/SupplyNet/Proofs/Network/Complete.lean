import Mathlib
import SupplyNet.Proofs.Network.Columns
import SupplyNet.Proofs.Network.Resolved
import SupplyNet.Proofs.Network.Validation

/-!
Lookups that succeed. Once the commodities of a network are settled, every edge finds its flow in
the slot of its target, and all that is looked up in the flows of a node is there: flows have an
expression for each step, commodities have units, outputs have conversions and ratios have flows.
-/
set_option autoImplicit false

namespace SupplyNet

variable {K : Type} [Scalar K]

/-! ## What is looked up -/

/-- The ends of an edge are nodes, and its target has declared a flow in its slot. A node has as
many commodities as flows on each side, where a side without edges has one flow. -/
structure Graph.Slotted (g : Graph K) (cs : List NodeCommodities) (ds : List (Declared K)) :
    Prop where
  length : ds.length = g.nodes.length
  source : ∀ e ∈ g.edges, e.source < g.nodes.length
  slot : ∀ e ∈ g.edges, ∃ d flow, ds[e.target]? = some d ∧ d.inflows[e.slot]? = some flow ∧
    (e, flow) ∈ g.wires ds
  inflow : ∀ (i : Nat) c d, cs[i]? = some c → ds[i]? = some d →
    c.inflow.length = max 1 d.inflows.length
  outflow : ∀ (i : Nat) c, cs[i]? = some c → c.outflow.length = max 1 (g.edgesFrom i).length

/-- The flows of a node have a commodity each and an expression for each step, there is a unit for
each commodity, and what the node says about its commodities and neighbours is about its flows. -/
structure Node.Complete (n : Node K) (catalogue : Catalogue K) (steps : Nat) (c : NodeCommodities)
    (f : NodeFlows K) : Prop where
  inflow : f.inflows.map (·.commodity) = c.inflow
  outflow : f.outflows.map (·.commodity) = c.outflow
  inflow_ne_nil : c.inflow ≠ []
  outflow_ne_nil : c.outflow ≠ []
  flow_size : ∀ s ∈ f.inflows ++ f.outflows, s.flow.size = steps
  size : n.hasSize = f.size.isSome
  storage : n.storage.isSome = f.storage.isSome
  storage_size : ∀ s, f.storage = some s →
    s.level.size = steps ∧ s.charge.size = steps ∧ s.discharge.size = steps
  unit : ∀ commodity ∈ c.inflow ++ c.outflow, ∃ unit, catalogue.unitOf commodity = .ok unit
  sizeCommodity : f.size.isSome = true ∨ f.storage.isSome = true →
    ∃ commodity ∈ c.outflow, f.sizeCommodity = some commodity
  conversion : ∀ conversions, n.conversions = some conversions → ∀ output ∈ c.outflow,
    ∃ conversion, conversions.find? output = some conversion ∧ conversion.source ∈ c.inflow
  inputProportions : ∀ ratios, n.inputProportions = some ratios → ∀ key ∈ ratios.keys,
    sharing f.inflows (ratios.keys = distinct (f.inflows.map (·.commodity))) key ≠ []
  outputProportions : ∀ ratios, n.outputProportions = some ratios → ∀ key ∈ ratios.keys,
    sharing f.outflows (ratios.keys = distinct (f.outflows.map (·.commodity))) key ≠ []

/-! ## Slots -/

/-- A node without inlets declares one flow at most. -/
theorem Node.length_inflows_of_leaf {n : Node K} {catalogue : Catalogue K} {c : NodeCommodities}
    {m : Model K} {d : Declared K} (hi : n.inlets = []) (h : n.declaredIn catalogue c m = .ok d) :
    d.inflows.length ≤ 1 := by
  obtain ⟨inflows, hown, rfl⟩ := map_eq_ok_iff.1 h
  unfold ownInflows at hown
  cases hr : n.role with
  | fixedInput flow =>
    rw [hr] at hown
    obtain ⟨f, -, rfl⟩ := map_eq_ok_iff.1 hown
    exact le_rfl
  | scalableInput factors =>
    rw [hr] at hown
    obtain ⟨values, -, rfl⟩ := map_eq_ok_iff.1 hown
    exact le_rfl
  | fixedOutput inputs flow | scalableOutput inputs profile | generic inputs =>
    rw [hr, hi] at hown
    rw [← Except.ok.inj hown]
    exact Nat.zero_le 1

namespace Graph

variable {nodes : List (Node K)} {cs : List NodeCommodities} {ds : List (Declared K)}
variable {catalogue : Catalogue K} {m : Model K}

/-- An edge comes of the inlet in its slot. -/
theorem edge_of_mem_edgesOf (hw : Wired nodes) {e : Edge} (he : e ∈ edgesOf nodes) :
    ∃ n, nodes[e.target]? = some n ∧ e.source < nodes.length ∧ e.slot < n.inlets.length ∧
      (edgesInto nodes e.target n)[e.slot]? = some e := by
  obtain ⟨n, inlet, hn, hinlet, hsource, hcommodity⟩ := mem_edgesOf.1 he
  have hmem := List.mem_of_getElem? hn
  refine ⟨n, hn, ?_, (List.getElem?_eq_some_iff.1 hinlet).1, ?_⟩
  · obtain ⟨hlt, -⟩ := List.findIdx?_eq_some_iff_getElem.1 hsource
    exact hlt
  · rw [edgesInto_eq hw hmem, List.getElem?_map, List.getElem?_zipIdx, hinlet, Nat.zero_add]
    simp [hsource, hcommodity]

theorem slotted_of_declaredIn (hw : Wired nodes)
    (hc : List.Forall₂ (fun n c => n.settle catalogue (outlets nodes n.name) = .ok c) nodes cs)
    (h : ((nodes.zip cs).mapM fun p => p.1.declaredIn catalogue p.2 m) = .ok ds) :
    Slotted ⟨nodes, edgesOf nodes⟩ cs ds := by
  have hlen := length_of_declaredIn hc.length_eq.symm h
  have hitem : ∀ {i : Nat} {c : NodeCommodities}, cs[i]? = some c → ∃ n, nodes[i]? = some n ∧
      n.settle catalogue (outlets nodes n.name) = .ok c := by
    intro i c hi
    have hlt : i < nodes.length := hc.length_eq ▸ (List.getElem?_eq_some_iff.1 hi).1
    have hn := List.getElem?_eq_getElem hlt
    exact ⟨_, hn, (forall₂_iff_getElem?.1 hc).2 i _ _ hn hi⟩
  refine ⟨hlen, fun e he => ?_, fun e he => ?_, fun i c d hi hd => ?_, fun i c hi => ?_⟩
  · obtain ⟨-, -, hsource, -⟩ := edge_of_mem_edgesOf hw he
    exact hsource
  · obtain ⟨n, hn, -, hslot, hedge⟩ := edge_of_mem_edgesOf hw he
    have hlt := (List.getElem?_eq_some_iff.1 hn).1
    have hd := List.getElem?_eq_getElem (hlen ▸ hlt)
    have hcommodity := List.getElem?_eq_getElem (hc.length_eq ▸ hlt)
    have hflows := (Node.inflows_of_declaredIn (declaredIn_of_getElem? h hn hcommodity hd)).1
      (List.ne_nil_of_length_pos (Nat.zero_lt_of_lt hslot))
    obtain ⟨flow, hflow⟩ : ∃ flow, ds[e.target].inflows[e.slot]? = some flow := by
      rw [hflows, List.getElem?_map, List.getElem?_eq_getElem hslot]
      exact ⟨_, rfl⟩
    refine ⟨_, flow, hd, hflow, List.mem_flatMap.2
      ⟨(_, e.target), List.mk_mem_zipIdx_iff_getElem?.2 hd, ?_⟩⟩
    dsimp only
    rw [edgesTo_eq hn]
    exact List.mem_of_getElem? (getElem?_zip_of hedge hflow)
  · obtain ⟨n, hn, hsettle⟩ := hitem hi
    have hdeclared := declaredIn_of_getElem? h hn hi hd
    rw [Node.length_inflow hsettle, Node.inputs, List.length_map]
    by_cases hnil : n.inlets = []
    · rw [hnil, max_eq_left (Node.length_inflows_of_leaf hnil hdeclared)]
      rfl
    · rw [(Node.inflows_of_declaredIn hdeclared).1 hnil, List.length_map]
  · obtain ⟨n, hn, hsettle⟩ := hitem hi
    have hedges := congrArg List.length (edgeCommodities_eq hw hn)
    rw [List.length_map, List.length_map] at hedges
    rw [hedges, Node.length_outflow hsettle]

end Graph

/-! ## Steps -/

theorem Flow.size_ofVars (vs : Array Var) : (Flow.ofVars vs : Flow K).size = vs.size :=
  Array.size_map

/-- The values of a series in a unit are its values times a factor. -/
theorem Series.valuesIn_eq_map (s : Series K) (target : Measure.Unit K) :
    s.valuesIn target =
      (s.unit.elim (.ok 1) (·.ratio target)).map fun factor => s.values.map (· * factor) := by
  unfold valuesIn
  cases s.unit with
  | none => rfl
  | some unit =>
    dsimp only [Option.elim]
    cases unit.ratio target with
    | error e => rfl
    | ok factor => rfl

theorem Series.length_valuesIn {s : Series K} {target : Measure.Unit K} {values : List K}
    (h : s.valuesIn target = .ok values) : values.length = s.grid.size := by
  rw [valuesIn_eq_map] at h
  obtain ⟨factor, -, rfl⟩ := map_eq_ok_iff.1 h
  rw [List.length_map, s.length_eq]

namespace Node

theorem size_of_flowIn {catalogue : Catalogue K} {commodities : List String} {profile : Series K}
    {flow : Flow K} (h : flowIn catalogue commodities profile = .ok flow) :
    flow.size = profile.grid.size := by
  obtain ⟨unit, -, h⟩ := bind_eq_ok_iff.1 h
  obtain ⟨values, hvalues, h⟩ := bind_eq_ok_iff.1 h
  rw [← Except.ok.inj h]
  unfold Flow.ofValues
  rw [List.size_toArray, List.length_map, Series.length_valuesIn (mapError_eq_ok_iff.1 hvalues)]

section Sizes

variable {nodes : List (Node K)} {grid : Grid} {catalogue : Catalogue K} {n : Node K}
variable {c : NodeCommodities} {f : NodeFlows K}
variable (hnames : ((variableKeys nodes).map (·.name)).Nodup) (hgrid : OnGrid nodes grid)
variable (hn : n ∈ nodes)

include hnames

theorem size_flowOf {k : VariableKey} (hk : k ∈ variableKeys nodes)
    (hs : k.steps? grid.size = some grid.size) :
    ((registry nodes grid.size).flowOf k).size = grid.size := by
  unfold Model.flowOf
  rw [Flow.size_ofVars, size_seriesOf hnames hk hs]

include hgrid hn

theorem size_leafInflow (hi : n.inlets = []) {commodity : String} {flow : Flow K}
    (h : n.leafInflow catalogue commodity (registry nodes grid.size) = .ok flow) :
    flow.size = grid.size := by
  have hprofile : ∀ profile, n.role.profile? = some profile → profile.grid = grid := hgrid n hn
  unfold leafInflow at h
  cases hr : n.role with
  | fixedInput profile =>
    rw [hr] at h hprofile
    rw [size_of_flowIn h, hprofile profile rfl]
  | scalableInput factors =>
    rw [hr] at h hprofile
    obtain ⟨values, hvalues, rfl⟩ := map_eq_ok_iff.1 h
    unfold Flow.ofFactors
    rw [List.size_toArray, List.length_map,
      Series.length_valuesIn (mapError_eq_ok_iff.1 hvalues), hprofile factors rfl]
  | fixedOutput inputs profile | scalableOutput inputs profile | generic inputs =>
    have hk : ¬n.kind.isInput := by
      simp [kind, hr, Role.kind, NodeKind.isInput, NodeKind.part]
    rw [hr] at h
    rw [← Except.ok.inj h]
    exact size_flowOf hnames (mem_variableKeys_inflow hn hk hi) rfl

theorem size_leafOutflow (hs : outlets nodes n.name = []) {commodity : String} {flow : Flow K}
    (h : n.leafOutflow catalogue commodity (registry nodes grid.size) = .ok flow) :
    flow.size = grid.size := by
  have hprofile : ∀ profile, n.role.profile? = some profile → profile.grid = grid := hgrid n hn
  unfold leafOutflow at h
  cases hr : n.role with
  | fixedOutput inputs profile =>
    rw [hr] at h hprofile
    rw [size_of_flowIn h, hprofile profile rfl]
  | fixedInput profile | scalableInput profile | scalableOutput inputs profile | generic inputs =>
    have hk : n.kind ≠ .fixedOutput := by simp [kind, hr, Role.kind]
    rw [hr] at h
    rw [← Except.ok.inj h]
    exact size_flowOf hnames (mem_variableKeys_outflow hn hk hs) rfl

variable (h : n.Bound catalogue (outlets nodes n.name) (registry nodes grid.size) c f)

include h

theorem size_inflow : ∀ s ∈ f.inflows, s.flow.size = grid.size := by
  have hin := h.inflows
  unfold inStreams at hin
  by_cases hi : n.inlets = []
  · rw [if_pos hi] at hin
    obtain ⟨flow, hflow, hf⟩ := map_eq_ok_iff.1 hin
    rw [← hf]
    exact List.forall_mem_singleton.2 (size_leafInflow hnames hgrid hn hi hflow)
  · rw [if_neg hi] at hin
    rw [← Except.ok.inj hin]
    intro s hs
    obtain ⟨inlet, hinlet, rfl⟩ := List.mem_map.1 hs
    exact size_flowOf hnames (mem_variableKeys_edge hn hinlet) rfl

theorem size_outflow : ∀ s ∈ f.outflows, s.flow.size = grid.size := by
  have hout := h.outflows
  unfold outStreams at hout
  by_cases hs : outlets nodes n.name = []
  · rw [if_pos hs] at hout
    obtain ⟨flow, hflow, hf⟩ := map_eq_ok_iff.1 hout
    rw [← hf]
    exact List.forall_mem_singleton.2 (size_leafOutflow hnames hgrid hn hs hflow)
  · rw [if_neg hs] at hout
    rw [← Except.ok.inj hout]
    intro s hs
    obtain ⟨o, ho, rfl⟩ := List.mem_map.1 hs
    exact size_flowOf hnames (mem_variableKeys_outlet ho) rfl

omit hgrid in
theorem size_storage {s : StorageVars} (hs : f.storage = some s) :
    s.level.size = grid.size ∧ s.charge.size = grid.size ∧ s.discharge.size = grid.size := by
  rw [h.storage] at hs
  unfold storageIn at hs
  split at hs
  · next hstorage =>
    obtain ⟨-, hlevel, hcharge, hdischarge⟩ := stored_mem_variableKeys hn hstorage
    rw [← Option.some.inj hs]
    exact ⟨size_seriesOf hnames hlevel rfl, size_seriesOf hnames hcharge rfl,
      size_seriesOf hnames hdischarge rfl⟩
  · cases hs

end Sizes

/-! ## Commodities and neighbours -/

section Bound

variable {catalogue : Catalogue K} {served : List Outlet} {m : Model K} {n : Node K}
variable {c : NodeCommodities} {f : NodeFlows K} (h : n.Bound catalogue served m c f)

include h

namespace Bound

theorem commodity_inflows : f.inflows.map (·.commodity) = c.inflow := by
  have hin := h.inflows
  unfold inStreams at hin
  by_cases hi : n.inlets = []
  · obtain ⟨commodity, hc⟩ := inflow_of_leaf h.settled hi
    rw [if_pos hi, hc] at hin
    obtain ⟨flow, -, hf⟩ := map_eq_ok_iff.1 hin
    rw [← hf, hc]
    rfl
  · rw [if_neg hi] at hin
    rw [← Except.ok.inj hin, inflow_of_inlets h.settled hi, List.map_map]
    rfl

theorem commodity_outflows : f.outflows.map (·.commodity) = c.outflow := by
  have hout := h.outflows
  unfold outStreams at hout
  by_cases hs : served = []
  · obtain ⟨commodity, -, hc⟩ := outflow_of_leaf h.settled hs
    rw [if_pos hs, hc] at hout
    obtain ⟨flow, -, hf⟩ := map_eq_ok_iff.1 hout
    rw [← hf, hc]
    rfl
  · rw [if_neg hs] at hout
    rw [← Except.ok.inj hout, outflow_of_served h.settled hs, List.map_map]
    rfl

theorem exists_inflow {input : String} (hi : input ∈ n.inputs) :
    ∃ s ∈ f.inflows, s.neighbour = some input := by
  obtain ⟨inlet, hinlet, rfl⟩ := List.mem_map.1 hi
  have hin := h.inflows
  unfold inStreams at hin
  rw [if_neg (List.ne_nil_of_mem hinlet)] at hin
  rw [← Except.ok.inj hin]
  exact ⟨_, List.mem_map_of_mem hinlet, rfl⟩

theorem exists_outflow {target : String} (ht : target ∈ served.map (·.target)) :
    ∃ s ∈ f.outflows, s.neighbour = some target := by
  obtain ⟨o, ho, rfl⟩ := List.mem_map.1 ht
  have hout := h.outflows
  unfold outStreams at hout
  rw [if_neg (List.ne_nil_of_mem ho)] at hout
  rw [← Except.ok.inj hout]
  exact ⟨_, List.mem_map_of_mem ho, rfl⟩

theorem sharing_inflows (hbuilt : n.Built) {ratios : Keyed (Quantity K)}
    (hr : n.inputProportions = some ratios) {key : String} (hkey : key ∈ ratios.keys) :
    sharing f.inflows (ratios.keys = distinct (f.inflows.map (·.commodity))) key ≠ [] := by
  obtain ⟨hkeys, -⟩ := hbuilt.inputProportions_eq_some hr
  have hne : n.inputCommodities ≠ [] := by
    intro hnil
    -- No commodity is known only without inlets, and then there is no key at all.
    have hinputs : n.inputs = [] := by
      by_contra hne
      have hi : n.inlets ≠ [] := fun hi => hne (by rw [inputs, hi]; rfl)
      rw [inputCommodities_of_inlets hi, List.map_eq_nil_iff] at hnil
      exact hi hnil
    rw [hnil, hinputs, or_self, distinct_eq_nil_iff.2 rfl] at hkeys
    rw [hkeys] at hkey
    exact absurd hkey List.not_mem_nil
  rw [← inflow_eq_inputCommodities h.settled hne, ← h.commodity_inflows] at hkeys
  exact sharing_ne_nil hkeys (fun _ => h.exists_inflow) hkey

theorem sharing_outflows {ratios : Keyed (Quantity K)} (hr : n.outputProportions = some ratios)
    {key : String} (hkey : key ∈ ratios.keys) :
    sharing f.outflows (ratios.keys = distinct (f.outflows.map (·.commodity))) key ≠ [] := by
  have hkeys := (outputProportions_eq_some h.settled hr).1
  rw [← h.commodity_outflows] at hkeys
  exact sharing_ne_nil hkeys (fun _ => h.exists_outflow) hkey

end Bound

end Bound

/-- All is there for a node with its flows in a network. -/
theorem Bound.complete {nodes : List (Node K)} {grid : Grid} {catalogue : Catalogue K} {n : Node K}
    {c : NodeCommodities} {f : NodeFlows K}
    (h : n.Bound catalogue (outlets nodes n.name) (registry nodes grid.size) c f)
    (hnames : ((variableKeys nodes).map (·.name)).Nodup) (hgrid : OnGrid nodes grid)
    (hn : n ∈ nodes) (hbuilt : n.Built) : n.Complete catalogue grid.size c f where
  inflow := h.commodity_inflows
  outflow := h.commodity_outflows
  inflow_ne_nil := inflow_ne_nil h.settled
  outflow_ne_nil := outflow_ne_nil h.settled
  flow_size := List.forall_mem_append.2
    ⟨size_inflow hnames hgrid hn h, size_outflow hnames hgrid hn h⟩
  size := h.hasSize_eq
  storage := h.storage_isSome_eq
  storage_size := fun _ => size_storage hnames hn h
  unit := fun _ hcommodity => exists_unit h.settled (List.mem_append.1 hcommodity)
  sizeCommodity := by
    rw [← h.hasSize_eq, ← h.storage_isSome_eq, h.sizeCommodity]
    exact exists_sizeCommodity h.settled
  conversion := by
    intro conversions hconversions output houtput
    obtain ⟨conversion, hfind, hsource, -⟩ :=
      exists_conversion h.settled hbuilt hconversions houtput
    exact ⟨conversion, hfind, hsource⟩
  inputProportions := fun _ hr _ => h.sharing_inflows hbuilt hr
  outputProportions := fun _ hr _ => h.sharing_outflows hr

end Node

/-! ## Both passes -/

namespace Graph

variable {nodes : List (Node K)} {grid : Grid} {catalogue : Catalogue K}
variable {cs : List NodeCommodities} (hw : Wired nodes)
variable (hc : List.Forall₂ (fun n c => n.settle catalogue (outlets nodes n.name) = .ok c) nodes cs)

include hw hc

/-- After the first pass the edges find their flows. -/
theorem slotted_of_declare {steps : Nat} {ds : List (Declared K)} {m : Model K}
    (h : runEach (Node.declare catalogue steps) .empty (nodes.zip cs) = .ok (ds, m)) :
    Slotted ⟨nodes, edgesOf nodes⟩ cs ds := by
  have hrealizes := Realizes.runEach (l := nodes.zip cs)
    (fun p _ m => realizes_declare catalogue steps p.1 p.2 m) Model.empty
  exact slotted_of_declaredIn hw hc (hrealizes.eq_ok_iff.1 h).2.2

/-- After the second pass each node has its flows. -/
theorem bound_of_addFlows {fs : List (NodeFlows K)} {m : Model K}
    (h : addFlows ⟨nodes, edgesOf nodes⟩ catalogue grid.size cs .empty = .ok (fs, m)) :
    ((variableKeys nodes).map (·.name)).Nodup ∧ fs.length = nodes.length ∧
      ∀ (i : Nat) n c f, nodes[i]? = some n → cs[i]? = some c → fs[i]? = some f →
        n.Bound catalogue (outlets nodes n.name) (registry nodes grid.size) c f := by
  obtain ⟨hnames, rfl, hflows⟩ := (addFlows_eq_ok_iff hw hc.length_eq.symm).1 h
  obtain ⟨hlen, hget⟩ := forall₂_iff_getElem?.1 hflows
  rw [List.length_zip, ← hc.length_eq, Nat.min_self] at hlen
  refine ⟨hnames, hlen.symm, fun i n c f hn hci hf => ?_⟩
  exact Node.bound_of_flowsIn ((forall₂_iff_getElem?.1 hc).2 i n c hn hci)
    (hw.not_isOutput_of_served (List.mem_of_getElem? hn)) (hget i _ _ (getElem?_zip_of hn hci) hf)

end Graph

end SupplyNet
