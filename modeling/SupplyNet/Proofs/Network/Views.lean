import Mathlib
import SupplyNet.Proofs.Linear.Solving
import SupplyNet.Proofs.Network.Columns
import SupplyNet.Proofs.Network.History
import SupplyNet.Proofs.Network.Streams

/-!
Views of the edges. An edge is an input that a node names, a link of the graph with a slot, and a
series of columns. Whichever of them is asked for, it is the same edges that are there, each of them
once, and the flow over an edge is read from the slot of its target in which its source stands.
-/
set_option autoImplicit false

namespace SupplyNet

variable {K : Type} [Scalar K]

namespace Graph

section Edges

variable {nodes : List (Node K)}

variable (hw : Wired nodes)

include hw

theorem nameAt_source {edges : List Edge} {n : Node K} (hn : n ∈ nodes) {inlet : Inlet}
    (h : inlet ∈ n.inlets) :
    nameAt ⟨nodes, edges⟩ ((indexIn nodes inlet.source).getD 0) = inlet.source := by
  obtain ⟨m, hm, hname⟩ := hw.known n hn inlet.source (List.mem_map_of_mem h)
  obtain ⟨i, hi⟩ := List.mem_iff_getElem?.1 hm
  rw [← hname, indexIn_eq hw hi, Option.getD_some, nameAt_eq hi]

theorem map_edgesInto {β : Type} {n : Node K} (hn : n ∈ nodes) (target : Nat)
    {f : Edge → β} {g : Inlet → β}
    (hfg : ∀ inlet ∈ n.inlets, ∀ slot,
      f ⟨(indexIn nodes inlet.source).getD 0, target, slot, inlet.commodity⟩ = g inlet) :
    (edgesInto nodes target n).map f = n.inlets.map g := by
  rw [edgesInto_eq hw hn, List.map_map]
  conv_rhs => rw [← List.zipIdx_map_fst 0 n.inlets, List.map_map]
  apply List.map_congr_left
  rintro ⟨inlet, slot⟩ h
  exact hfg inlet ((List.mem_zipIdx' h).2 ▸ List.getElem_mem _) slot

/-- The neighbours that the edges lead from are the inputs that a node names, in their order. -/
theorem inputNames_eq {t : Nat} {n : Node K} (ht : nodes[t]? = some n) :
    inputNames ⟨nodes, edgesOf nodes⟩ t = n.inputs := by
  unfold inputNames
  rw [edgesTo_eq ht, map_edgesInto hw (List.mem_of_getElem? ht) t fun _ h _ =>
    nameAt_source hw (List.mem_of_getElem? ht) h]
  rfl

/-- All edges by name: the inputs of one node after the other. -/
theorem names_edgesOf :
    (edgesOf nodes).map (fun e => (nameAt ⟨nodes, edgesOf nodes⟩ e.source,
        nameAt ⟨nodes, edgesOf nodes⟩ e.target)) =
      nodes.flatMap fun n => n.inputs.map fun input => (input, n.name) := by
  conv_lhs => arg 2; unfold edgesOf
  rw [List.map_flatMap]
  conv_rhs => rw [← List.zipIdx_map_fst 0 nodes, List.flatMap_map]
  apply List.flatMap_congr
  rintro ⟨n, t⟩ h
  have ht := List.mk_mem_zipIdx_iff_getElem?.1 h
  have hn := List.mem_of_getElem? ht
  dsimp only
  rw [map_edgesInto hw hn t (g := fun inlet => (inlet.source, n.name)) fun inlet hinlet _ => by
    rw [nameAt_source hw hn hinlet, nameAt_eq ht]]
  unfold Node.inputs
  rw [List.map_map]
  rfl

omit hw in
/-- If no node names an input twice, a node serves each other one at most once. -/
theorem targets_eq (hinputs : ∀ n ∈ nodes, n.inputs.Nodup) (name : String) :
    (outlets nodes name).map (·.target) =
      (nodes.filter fun m => name ∈ m.inputs).map (·.name) := by
  have hone : ∀ m ∈ nodes, ((m.inlets.filter (·.source = name)).map fun i =>
      (⟨m.name, i.commodity⟩ : Outlet)).map (·.target) =
        if name ∈ m.inputs then [m.name] else [] := by
    intro m hm
    have hcount : (m.inlets.filter (·.source = name)).length = m.inputs.count name := by
      unfold Node.inputs
      rw [List.count, List.countP_map, List.countP_eq_length_filter]
      exact congrArg List.length (List.filter_congr fun _ _ => rfl)
    rw [List.map_map]
    change (m.inlets.filter (·.source = name)).map (fun _ => m.name) = _
    rw [List.map_const', hcount]
    split
    · next h => rw [List.count_eq_one_of_mem (hinputs m hm) h, List.replicate_one]
    · next h => rw [List.count_eq_zero_of_not_mem h, List.replicate_zero]
  unfold outlets
  rw [List.map_flatMap, List.flatMap_congr hone]
  clear hone hinputs
  induction nodes with
  | nil => rfl
  | cons m nodes ih =>
    rw [List.flatMap_cons, List.filter_cons, ih]
    split <;> simp_all

theorem nodup_names_edges (hinputs : ∀ n ∈ nodes, n.inputs.Nodup) :
    (nodes.flatMap fun n => n.inputs.map fun input => (input, n.name)).Nodup := by
  rw [List.nodup_flatMap]
  refine ⟨fun n hn => (hinputs n hn).map fun a b h => (Prod.mk.inj h).1, ?_⟩
  refine (List.pairwise_map.1 hw.names_nodup).imp fun {n m} hne p hp hp' => hne ?_
  obtain ⟨a, -, rfl⟩ := List.mem_map.1 hp
  obtain ⟨b, -, h⟩ := List.mem_map.1 hp'
  exact (Prod.mk.inj h).2.symm

/-! ## One edge -/

/-- There is an edge from one node to another if the second one names the first, and its slot is the
place of the name. -/
theorem find?_edgesOf (hinputs : ∀ n ∈ nodes, n.inputs.Nodup) {i j : Nat} {a b : Node K}
    (hi : nodes[i]? = some a) (hj : nodes[j]? = some b) :
    (a.name ∉ b.inputs → ((edgesOf nodes).find? fun e => e.source = i && e.target = j) = none) ∧
    ∀ slot, b.inputs[slot]? = some a.name → ∃ e,
      ((edgesOf nodes).find? fun e => e.source = i && e.target = j) = some e ∧ e.slot = slot := by
  have hedge : ∀ e ∈ edgesOf nodes, e.source = i → e.target = j →
      b.inputs[e.slot]? = some a.name := by
    rintro e he rfl rfl
    obtain ⟨n, inlet, hn, hinlet, hsource, -⟩ := mem_edgesOf.1 he
    obtain rfl := Option.some.inj (hj.symm.trans hn)
    have hname := (source_eq_iff hw hi (List.mem_of_getElem? hj) (List.mem_of_getElem? hinlet)).1
      (by rw [hsource, Option.getD_some])
    unfold Node.inputs
    rw [List.getElem?_map, hinlet, Option.map_some, hname]
  constructor
  · intro hnot
    rw [List.find?_eq_none]
    intro e he hends
    rw [Bool.and_eq_true, decide_eq_true_eq, decide_eq_true_eq] at hends
    exact hnot (List.mem_of_getElem? (hedge e he hends.1 hends.2))
  · intro slot hslot
    cases hfound : (edgesOf nodes).find? fun e => e.source = i && e.target = j with
    | none =>
      obtain ⟨inlet, hinlet, hsource⟩ := Option.map_eq_some_iff.1
        ((List.getElem?_map ..).symm.trans hslot)
      have he : (⟨i, j, slot, inlet.commodity⟩ : Edge) ∈ edgesOf nodes :=
        mem_edgesOf.2 ⟨b, inlet, hj, hinlet, by rw [hsource, indexIn_eq hw hi], rfl⟩
      exact absurd (List.find?_eq_none.1 hfound _ he) (by simp)
    | some e =>
      have hends := List.find?_some hfound
      rw [Bool.and_eq_true, decide_eq_true_eq, decide_eq_true_eq] at hends
      have he := hedge e (List.mem_of_find?_eq_some hfound) hends.1 hends.2
      exact ⟨e, rfl, (List.getElem?_inj (List.getElem?_eq_some_iff.1 he).1
        (hinputs b (List.mem_of_getElem? hj))).1 (he.trans hslot.symm)⟩

end Edges

end Graph

/-! ## Flows over the edges -/

/-- Some columns are those of an edge, one for each step, and they are the flow into the target in
some slot. -/
structure Network.Conveys (net : Network K) (source target : String) (slot : Nat)
    (columns : Array Var) : Prop where
  series : net.model.series? (VariableKey.edge source target).name = some columns
  size : columns.size = net.grid.size
  inflow : ∃ (j : Nat) (stream : Stream K), net.indexOf target = .ok j ∧
    (net.flowsAt j).inflows[slot]? = some stream ∧ stream.neighbour = some source ∧
    stream.flow = .ofVars columns

theorem Network.Conveys.keep {net : Network K} {source target : String} {slot : Nat}
    {columns : Array Var} (h : net.Conveys source target slot columns)
    (kept : Option (Solution K)) :
    ({ net with solution := kept } : Network K).Conveys source target slot columns :=
  ⟨h.series, h.size, h.inflow⟩

/-- A flow is answered with the columns that the edge conveys. -/
theorem Network.flow_eq_of_conveys {net : Network K} {i j : Nat} {e : Edge} {columns : Array Var}
    {s : Solution K} {source target : String} (hi : net.indexOf source = .ok i)
    (hj : net.indexOf target = .ok j)
    (hfind : (net.graph.edges.find? fun e => e.source = i && e.target = j) = some e)
    (hconveys : net.Conveys source target e.slot columns) (hs : net.solution = some s) :
    net.flow source target = .ok (columns.map fun v => s.eval (.ofVar v)) := by
  obtain ⟨j', stream, hj', hstream, -, hflow⟩ := hconveys.inflow
  obtain rfl := Except.ok.inj (hj.symm.trans hj')
  have hsolved : net.solved = .ok s := by
    unfold solved
    rw [hs]
  unfold flow
  simp only [hi, hj, hfind, hsolved, hstream, hflow, bind, Except.bind, Flow.ofVars, Array.map_map]
  rfl

theorem Network.flow_of_no_edge {net : Network K} {i j : Nat} {source target : String}
    (hi : net.indexOf source = .ok i) (hj : net.indexOf target = .ok j)
    (hfind : (net.graph.edges.find? fun e => e.source = i && e.target = j) = none) :
    net.flow source target = .error (.noEdge source target) := by
  unfold flow
  simp only [hi, hj, hfind, bind, Except.bind]
  rfl

/-! ## All views -/

namespace Compiled

variable {nodes : List (Node K)} {grid : Grid} {config : Config K} {cs : List NodeCommodities}
variable {groups : List (Rows K)} {net : Network K}

theorem graph_eq (hc : Compiled nodes grid config cs groups net) :
    net.graph = ⟨nodes, Graph.edgesOf nodes⟩ := by
  rw [hc.network]

theorem indexOf_eq (hc : Compiled nodes grid config cs groups net) {i : Nat} {n : Node K}
    (hi : nodes[i]? = some n) : net.indexOf n.name = .ok i := by
  unfold Network.indexOf Graph.index?
  rw [hc.graph_eq, Graph.indexIn_eq hc.wired hi]

theorem node_eq (hc : Compiled nodes grid config cs groups net) {n : Node K} (hn : n ∈ nodes) :
    net.node n.name = .ok n := by
  have hfind : nodes.find? (fun m => m.name = n.name) = some n := by
    cases hfound : nodes.find? fun m => m.name = n.name with
    | none => exact absurd (List.find?_eq_none.1 hfound n hn) (by simp)
    | some m =>
      have hname : m.name = n.name := by simpa using List.find?_some hfound
      rw [List.inj_on_of_nodup_map hc.wired.names_nodup (List.mem_of_find?_eq_some hfound) hn hname]
  unfold Network.node Graph.node?
  rw [hc.graph_eq, hfind]

/-- The columns of an edge are carried in the slot in which its source stands. -/
theorem conveys (hc : Compiled nodes grid config cs groups net) {slot : Nat} {b : Node K}
    (hb : b ∈ nodes) {source : String} (hslot : b.inputs[slot]? = some source) :
    ∃ columns, net.Conveys source b.name slot columns := by
  obtain ⟨j, hj⟩ := List.mem_iff_getElem?.1 hb
  obtain ⟨inlet, hinlet, rfl⟩ := Option.map_eq_some_iff.1 ((List.getElem?_map ..).symm.trans hslot)
  have hkey : .edge inlet.source b.name ∈ variableKeys nodes :=
    edge_mem_variableKeys.2 ⟨b, hb, List.mem_of_getElem? hslot, rfl⟩
  obtain ⟨columns, hseries, hsize⟩ :
      (registry nodes grid.size).Has grid.size (.edge inlet.source b.name) :=
    has_registry hc.names_nodup hkey
  have hlt : j < net.flows.length := hc.length_flows ▸ (List.getElem?_eq_some_iff.1 hj).1
  have hf := List.getElem?_eq_getElem hlt
  obtain ⟨c, hbound⟩ := hc.bound (List.mem_iff_getElem?.2 ⟨j, getElem?_zip_of hj hf⟩)
  have hinlets : b.inlets ≠ [] := List.ne_nil_of_mem (List.mem_of_getElem? hinlet)
  have hinflows := hbound.inflows
  unfold Node.inStreams at hinflows
  rw [if_neg hinlets, Except.ok.injEq] at hinflows
  refine ⟨columns, ?_, ?_, j, ⟨some inlet.source, inlet.commodity,
    (registry nodes grid.size).flowOf (.edge inlet.source b.name)⟩, hc.indexOf_eq hj, ?_, rfl, ?_⟩
  · rw [hc.model]
    exact hseries
  · rw [hc.network]
    exact hsize
  · unfold Network.flowsAt
    rw [hf, Option.getD_some, ← hinflows, List.getElem?_map, hinlet, Option.map_some]
  · simp only [Model.flowOf, Model.seriesOf, hseries, Option.getD_some]

section Views

variable (hc : Compiled nodes grid config cs groups net) (hinputs : ∀ n ∈ nodes, n.inputs.Nodup)
variable {a b : Node K} (ha : a ∈ nodes) (hb : b ∈ nodes)

include hc hinputs ha hb

/-- The inputs, the outputs and the edges of the view are those that the nodes name. -/
theorem edges_agree : ∃ inputs outputs,
    net.inputs b.name = .ok inputs ∧ net.outputs a.name = .ok outputs ∧
    b.inputs.Nodup ∧ inputs.Nodup ∧ outputs.Nodup ∧ net.view.edges.Nodup ∧
    [a.name ∈ b.inputs, a.name ∈ inputs, b.name ∈ outputs,
      (a.name, b.name) ∈ net.view.edges].TFAE := by
  have hw := hc.wired
  obtain ⟨i, hi⟩ := List.mem_iff_getElem?.1 ha
  obtain ⟨j, hj⟩ := List.mem_iff_getElem?.1 hb
  have hsources : net.inputs b.name = .ok b.inputs := by
    unfold Network.inputs
    rw [hc.indexOf_eq hj, hc.graph_eq]
    exact congrArg _ (Graph.inputNames_eq hw hj)
  have htargets : net.outputs a.name =
      .ok ((nodes.filter fun m => a.name ∈ m.inputs).map (·.name)) := by
    unfold Network.outputs
    rw [hc.indexOf_eq hi, hc.graph_eq]
    exact congrArg _ ((Graph.outputNames_eq hw hi).trans (Graph.targets_eq hinputs a.name))
  have hedges : net.view.edges =
      nodes.flatMap fun n => n.inputs.map fun input => (input, n.name) := by
    unfold Network.view
    rw [hc.graph_eq]
    exact Graph.names_edgesOf hw
  have houtput : b.name ∈ (nodes.filter fun m => a.name ∈ m.inputs).map (·.name) ↔
      a.name ∈ b.inputs := by
    rw [List.mem_map]
    constructor
    · rintro ⟨m, hm, hname⟩
      obtain ⟨hm, hinput⟩ := List.mem_filter.1 hm
      rw [← List.inj_on_of_nodup_map hw.names_nodup hm hb hname]
      exact of_decide_eq_true hinput
    · exact fun hinput => ⟨b, List.mem_filter.2 ⟨hb, decide_eq_true hinput⟩, rfl⟩
  have hedge : (a.name, b.name) ∈ net.view.edges ↔ a.name ∈ b.inputs := by
    rw [hedges, List.mem_flatMap]
    constructor
    · rintro ⟨n, hn, hp⟩
      obtain ⟨input, hinput, heq⟩ := List.mem_map.1 hp
      obtain ⟨rfl, hname⟩ := Prod.mk.inj heq
      rwa [← List.inj_on_of_nodup_map hw.names_nodup hn hb hname]
    · exact fun hinput => ⟨b, hb, List.mem_map_of_mem hinput⟩
  refine ⟨_, _, hsources, htargets, hinputs b hb, hinputs b hb,
    hw.names_nodup.sublist (List.filter_sublist.map _),
    hedges ▸ Graph.nodup_names_edges hw hinputs, ?_⟩
  tfae_have 1 ↔ 2 := Iff.rfl
  tfae_have 3 ↔ 1 := houtput
  tfae_have 4 ↔ 1 := hedge
  tfae_finish

/-- Flows are answered over the edges and over nothing else. -/
theorem flow_cases (s : Solution K) :
    let solved : Network K := { net with solution := some s }
    a.name ∉ b.inputs ∧ solved.flow a.name b.name = .error (.noEdge a.name b.name) ∨
      a.name ∈ b.inputs ∧ ∀ slot, b.inputs[slot]? = some a.name → ∃ columns,
        solved.Conveys a.name b.name slot columns ∧
        solved.flow a.name b.name = .ok (columns.map fun v => s.eval (.ofVar v)) := by
  obtain ⟨i, hi⟩ := List.mem_iff_getElem?.1 ha
  obtain ⟨j, hj⟩ := List.mem_iff_getElem?.1 hb
  obtain ⟨hnone, hsome⟩ := Graph.find?_edgesOf hc.wired hinputs hi hj
  have hedges : net.graph.edges = Graph.edgesOf nodes := by rw [hc.graph_eq]
  rw [← hedges] at hnone hsome
  intro solved
  by_cases hinput : a.name ∈ b.inputs
  · refine Or.inr ⟨hinput, fun slot hslot => ?_⟩
    obtain ⟨columns, hconveys⟩ := hc.conveys hb hslot
    obtain ⟨e, hfind, rfl⟩ := hsome slot hslot
    have hkeep := hconveys.keep (some s)
    exact ⟨columns, hkeep, Network.flow_eq_of_conveys (hc.indexOf_eq hi) (hc.indexOf_eq hj) hfind
      hkeep rfl⟩
  · exact Or.inl ⟨hinput, Network.flow_of_no_edge (hc.indexOf_eq hi) (hc.indexOf_eq hj)
      (hnone hinput)⟩

end Views

end Compiled

/-- However often a network was optimized, its edges are the inputs that its nodes name: the inputs
and outputs of the nodes and the edges of the view are the same edges, and none of them is there
twice. Once there is a solution, flows can be asked for over these edges and no others. What is
answered are the solved columns of the edge, which are the flow into the slot of the target in which
the source stands. -/
theorem Network.views_agree {nodes : List (Node K)} {grid : Grid} {config : Config K}
    {net : Network K} (hbuilt : ∀ n ∈ nodes, n.Built)
    (h : Network.build nodes grid config = .ok net) (calls : List (Call K)) {a b : Node K}
    (ha : a ∈ nodes) (hb : b ∈ nodes) :
    let now := net.run calls
    now.node b.name = .ok b ∧
    (∃ inputs outputs, now.inputs b.name = .ok inputs ∧ now.outputs a.name = .ok outputs ∧
      b.inputs.Nodup ∧ inputs.Nodup ∧ outputs.Nodup ∧ now.view.edges.Nodup ∧
      [a.name ∈ b.inputs, a.name ∈ inputs, b.name ∈ outputs,
        (a.name, b.name) ∈ now.view.edges].TFAE) ∧
    ∀ s, now.solution = some s →
      ((∃ values, now.flow a.name b.name = .ok values) ↔ a.name ∈ b.inputs) ∧
      ∀ slot, b.inputs[slot]? = some a.name → ∃ columns, now.Conveys a.name b.name slot columns ∧
        now.flow a.name b.name = .ok (columns.map fun v => s.eval (.ofVar v)) := by
  obtain ⟨cs, groups, hc⟩ := Network.build_eq_ok_iff.1 h
  have hinputs : ∀ n ∈ nodes, n.inputs.Nodup := fun n hn => (hbuilt n hn).inputs_nodup.2
  obtain ⟨kept, hrun⟩ := net.run_eq calls
  rw [hrun]
  refine ⟨hc.node_eq hb, hc.edges_agree hinputs ha hb, ?_⟩
  rintro s (rfl : kept = some s)
  rcases hc.flow_cases hinputs ha hb s with ⟨hnot, herror⟩ | ⟨hinput, hall⟩
  · refine ⟨⟨fun ⟨values, hvalues⟩ => absurd (hvalues.symm.trans herror) (by simp),
      fun hinput => absurd hinput hnot⟩, fun slot hslot => ?_⟩
    exact absurd (List.mem_of_getElem? hslot) hnot
  · obtain ⟨slot, hslot⟩ := List.mem_iff_getElem?.1 hinput
    obtain ⟨columns, -, hflow⟩ := hall slot hslot
    exact ⟨iff_of_true ⟨_, hflow⟩ hinput, hall⟩

/-! ## Wind and sun -/

/-- A town that takes in what the sun gives before it takes in the wind. -/
def skyDrafts : List (Draft Rat) :=
  [windDraft,
    { name := "sun", role := .scalableInput (.constant windGrid (1 / 4)), costs := some (.plain 1) },
    { name := "town",
      role := .fixedOutput ⟨["sun", "wind"], .single "electricity"⟩ (.constant windGrid 5) }]

/-- The wind is the second input of the town, and nothing flows the other way. -/
theorem views_of_skyNetwork :
    (∀ n ∈ builtNodes skyDrafts, n.Built) ∧
    ∃ net, Network.build (builtNodes skyDrafts) windGrid .standard = .ok net ∧
      ∃ wind ∈ builtNodes skyDrafts, ∃ town ∈ builtNodes skyDrafts,
        let now := net.run [.chosen fun _ => .optimal #[8, 4, 1, 2, 4, 3]]
        town.inputs[1]? = some wind.name ∧
        (wind.name, town.name) ∈ now.view.edges ∧ (town.name, wind.name) ∉ now.view.edges ∧
        ∃ s, now.solution = some s ∧
          (∃ columns, now.Conveys wind.name town.name 1 columns ∧
            now.flow wind.name town.name = .ok (columns.map fun v => s.eval (.ofVar v))) ∧
          ¬∃ values, now.flow town.name wind.name = .ok values := by
  have hbuilt : ∀ n ∈ builtNodes skyDrafts, n.Built := fun _ hn => built_of_mem hn
  obtain ⟨net, h⟩ : ∃ net, Network.build (builtNodes skyDrafts) windGrid .standard = .ok net :=
    exists_of_isOk (by decide +kernel)
  obtain ⟨wind, hwind, town, htown, hslot, hnot⟩ : ∃ wind ∈ builtNodes skyDrafts,
      ∃ town ∈ builtNodes skyDrafts, town.inputs[1]? = some wind.name ∧
        town.name ∉ wind.inputs := by
    decide +kernel
  let calls : List (Call Rat) := [.chosen fun _ => .optimal #[8, 4, 1, 2, 4, 3]]
  obtain ⟨-, ⟨inputs, outputs, -, -, -, -, -, -, hviews⟩, hflow⟩ :=
    Network.views_agree hbuilt h calls hwind htown
  obtain ⟨-, ⟨inputs', outputs', -, -, -, -, -, -, hviews'⟩, hflow'⟩ :=
    Network.views_agree hbuilt h calls htown hwind
  obtain ⟨s, hs⟩ : ∃ s, (net.run calls).solution = some s := by
    change ∃ s, (net.optimizeWith _).2.solution = some s
    rw [net.optimizeWith_snd]
    exact ⟨_, congrArg Except.toOption (net.model.solution_eq_ok #[8, 4, 1, 2, 4, 3])⟩
  refine ⟨hbuilt, net, h, wind, hwind, town, htown, hslot,
    (hviews.out 0 3).1 (List.mem_of_getElem? hslot), fun hmem => hnot ((hviews'.out 0 3).2 hmem),
    s, hs, (hflow s hs).2 1 hslot, fun hvalues => hnot ((hflow' s hs).1.1 hvalues)⟩

end SupplyNet
