import Mathlib
import SupplyNet.Proofs.Network.Parts
import SupplyNet.Proofs.Network.RenamedRows

/-!
The order of the nodes does not count. The same nodes in another order make the same network, but
for the order of the columns and of the conditions.
-/
set_option autoImplicit false

namespace SupplyNet

/-- What a condition says under new names: its name, its coefficients, its constant, its relation and
its right side. -/
def Constraint.reading (φ : Var → Var) (c : Constraint Rat) :
    String × (Var → Rat) × Rat × Relation × Rat :=
  (c.name, fun v => c.expr.coeff (φ v), c.expr.const, c.relation, c.rhs)

/-- Two models with the same columns, conditions and objective in different orders. -/
structure Model.Rearranged (φ : Var ≃ Var) (m m' : Model Rat) : Prop where
  columns : ∀ v, m'.columns[(φ v).index]? = m.columns[v.index]?
  constraints : (m.constraints.toList.map (·.reading id)).Perm
    (m'.constraints.toList.map (·.reading φ))
  coeffs : ∀ v, m'.objective.coeff (φ v) = m.objective.coeff v
  const : m'.objective.const = m.objective.const

theorem Constraint.Renamed.reading_eq {φ : Var ≃ Var} {c c' : Constraint Rat}
    (h : c.Renamed φ c') : c.reading id = c'.reading φ := by
  have hcoeff : (fun v => c'.expr.coeff (φ v)) = c.expr.coeff := funext h.expr.coeff
  unfold Constraint.reading
  rw [h.name, hcoeff, h.expr.const, h.relation, h.rhs]
  rfl

/-! ## One commodity for each neighbour -/

section Neighbours

variable {nodes : List (Node Rat)} {n : Node Rat} {catalogue : Catalogue Rat}
variable {c : NodeCommodities} {m : Model Rat} {streams : List (Stream Rat)}

theorem oneCommodityEach_singleton (s : Stream Rat) : OneCommodityEach [s] := by
  intro a ha b hb _
  rw [List.mem_singleton.1 ha, List.mem_singleton.1 hb]

theorem oneCommodityEach_inStreams (hinputs : n.inputs.Nodup)
    (h : n.inStreams catalogue c m = .ok streams) : OneCommodityEach streams := by
  unfold Node.inStreams at h
  split at h
  · obtain ⟨flow, -, rfl⟩ := map_eq_ok_iff.1 h
    exact oneCommodityEach_singleton _
  · rw [← Except.ok.inj h]
    intro s hs s' hs' he
    obtain ⟨inlet, hi, rfl⟩ := List.mem_map.1 hs
    obtain ⟨inlet', hi', rfl⟩ := List.mem_map.1 hs'
    obtain rfl := List.inj_on_of_nodup_map hinputs hi hi' (Option.some.inj he)
    rfl

theorem oneCommodityEach_outStreams (hw : Wired nodes) (hinputs : ∀ n ∈ nodes, n.inputs.Nodup)
    (h : n.outStreams catalogue (outlets nodes n.name) c m = .ok streams) :
    OneCommodityEach streams := by
  unfold Node.outStreams at h
  split at h
  · obtain ⟨flow, -, rfl⟩ := map_eq_ok_iff.1 h
    exact oneCommodityEach_singleton _
  · rw [← Except.ok.inj h]
    intro s hs s' hs' he
    obtain ⟨o, ho, rfl⟩ := List.mem_map.1 hs
    obtain ⟨o', ho', rfl⟩ := List.mem_map.1 hs'
    obtain rfl := hw.outlet_unique hinputs ho ho' (Option.some.inj he)
    rfl

end Neighbours

/-! ## Parts -/

/-- The conditions and the costs of a node over the new names. -/
structure Part.Renamed (φ : Var ≃ Var) (p p' : Part Rat) : Prop where
  rows : List.Forall₂ (List.Forall₂ (Constraint.Renamed φ)) p.rows p'.rows
  costs : p.costs.Renamed φ p'.costs

section Parts

variable {nodes nodes' : List (Node Rat)} {grid : Grid} {config : Config Rat}
variable {currency : Measure.Unit Rat} {p : Part Rat} {parts parts' : List (Part Rat)}

/-- A node makes up the same part in both orders. -/
theorem Node.Makes.of_perm (hw : Wired nodes) (hinputs : ∀ n ∈ nodes, n.inputs.Nodup)
    (h : nodes.Perm nodes') (hn : ((variableKeys nodes).map (·.name)).Nodup) {n : Node Rat}
    (hmem : n ∈ nodes) (hp : n.Makes nodes grid config currency p) :
    ∃ p', n.Makes nodes' grid config currency p' ∧
      p.Renamed (columnMap h hn grid.size) p' := by
  have hk := hw.not_isOutput_of_served hmem
  obtain ⟨f', hf', hflows⟩ := carries_flowsIn h hn hmem hp.settled hk _ hp.flows
  obtain ⟨inflows, outflows, hin, hout, hf⟩ := (Node.flowsIn_eq_ok_iff hp.settled hk).1 hp.flows
  have honeIn : OneCommodityEach p.flows.inflows := by
    rw [hf]
    exact oneCommodityEach_inStreams (hinputs n hmem) hin
  have honeOut : OneCommodityEach p.flows.outflows := by
    rw [hf]
    exact oneCommodityEach_outStreams hw hinputs hout
  have hcarries : List.Forall₂ (Carries (List.Forall₂ (Constraint.Renamed _)))
      (n.rows config.catalogue grid.size grid.hours p.flows)
      (n.rows config.catalogue grid.size grid.hours f') :=
    Node.carries_rows hflows honeIn honeOut grid.size grid.hours
  rw [hp.rows] at hcarries
  obtain ⟨rows', hrows', hrows⟩ := Carries.exists_map_ok hcarries
  obtain ⟨costs', hcosts', hcosts⟩ :=
    Node.carries_totalCosts hflows currency grid.hours p.costs hp.costs
  refine ⟨⟨_, f', rows', costs'⟩, ⟨?_, hf', hrows', ?_, hcosts'⟩, hrows, hcosts⟩
  · exact Node.settle_of_perm hp.settled (outlets_perm h n.name)
  · exact (Matched.of_forall₂ (List.rel_flatten hrows)).forall_mem fun c hc c' hcc =>
      hcc.admissible (hp.admissible c hc)

theorem rearranged_assembled (h : nodes.Perm nodes')
    (hn : ((variableKeys nodes).map (·.name)).Nodup)
    (hparts : Matched (Part.Renamed (columnMap h hn grid.size)) parts parts') :
    (Network.assembled nodes grid config parts).model.Rearranged (columnMap h hn grid.size)
      (Network.assembled nodes' grid config parts').model := by
  have hobjective : (LinearExpr.sum (parts.map (·.costs))).Renamed (columnMap h hn grid.size)
      (.sum (parts'.map (·.costs))) := .sum (hparts.map fun _ _ hp => hp.costs)
  have hrows : Matched (Constraint.Renamed (columnMap h hn grid.size))
      (parts.flatMap (·.rows)).flatten (parts'.flatMap (·.rows)).flatten := by
    rw [List.flatMap_def, List.flatMap_def]
    refine Matched.flatten (Matched.flatten (hparts.map fun p p' hp => ?_))
    exact .of_forall₂ (hp.rows.imp fun _ _ hc => .of_forall₂ hc)
  refine ⟨columns_columnMap h hn, ?_, hobjective.coeff, hobjective.const⟩
  exact (Constraint.Renamed.stored hrows).perm_map fun c c' hc => hc.reading_eq

end Parts

namespace Network

variable {nodes nodes' : List (Node Rat)} {grid : Grid} {config : Config Rat}

theorem exists_rearranged (hinputs : ∀ n ∈ nodes, n.inputs.Nodup) (h : nodes.Perm nodes')
    {net : Network Rat} (hnet : build nodes grid config = .ok net) :
    ∃ net', build nodes' grid config = .ok net' ∧
      ∃ φ : Var ≃ Var, net.model.Rearranged φ net'.model := by
  obtain ⟨hw, hv, hn, currency, parts, hcurrency, hmakes, rfl⟩ := build_eq_ok_iff_parts.1 hnet
  obtain ⟨parts₁, hmakes₁, hperm⟩ := List.perm_comp_forall₂ h.symm hmakes
  obtain ⟨parts', hmakes', hparts⟩ := exists_forall₂_of_forall₂ hmakes₁ fun n hmem p hp =>
    hp.of_perm hw hinputs h hn (h.mem_iff.2 hmem)
  refine ⟨.assembled nodes' grid config parts', build_eq_ok_iff_parts.2 ⟨hw.of_perm h,
    validate_of_perm hw h hv, nodup_names_of_perm h hn, currency, parts', hcurrency, hmakes', rfl⟩,
    columnMap h hn grid.size, rearranged_assembled h hn ?_⟩
  exact List.perm_comp_forall₂ hperm.symm hparts

/-- The order of the nodes is not significant: a network is built in both orders or in none, and
both models have the same columns, conditions and objective. -/
theorem build_perm (hbuilt : ∀ n ∈ nodes, n.Built) (h : nodes.Perm nodes') (grid : Grid)
    (config : Config Rat) :
    ((∃ net, build nodes grid config = .ok net) ↔ ∃ net', build nodes' grid config = .ok net') ∧
    ∀ net net', build nodes grid config = .ok net → build nodes' grid config = .ok net' →
      ∃ φ : Var ≃ Var, net.model.Rearranged φ net'.model := by
  have hinputs : ∀ n ∈ nodes, n.inputs.Nodup := fun n hn => (hbuilt n hn).inputs_nodup.2
  have hinputs' : ∀ n ∈ nodes', n.inputs.Nodup := fun n hn => hinputs n (h.mem_iff.2 hn)
  refine ⟨⟨?_, ?_⟩, fun net net' hnet hnet' => ?_⟩
  · rintro ⟨net, hnet⟩
    obtain ⟨net', hnet', -⟩ := exists_rearranged hinputs h hnet
    exact ⟨net', hnet'⟩
  · rintro ⟨net', hnet'⟩
    obtain ⟨net, hnet, -⟩ := exists_rearranged hinputs' h.symm hnet'
    exact ⟨net, hnet⟩
  · obtain ⟨net'', hnet'', hφ⟩ := exists_rearranged hinputs h hnet
    obtain rfl : net'' = net' := Except.ok.inj (hnet''.symm.trans hnet')
    exact hφ

end Network

/-- The wind farm is the same if the town comes first. -/
theorem perm_of_windNetwork :
    ∃ net net', Network.build (builtNodes windDrafts) windGrid .standard = .ok net ∧
      Network.build (builtNodes windDrafts).reverse windGrid .standard = .ok net' ∧
      ∃ φ : Var ≃ Var, net.model.Rearranged φ net'.model := by
  obtain ⟨hiff, hsame⟩ := Network.build_perm (fun _ hn => built_of_mem hn)
    (List.reverse_perm (builtNodes windDrafts)).symm windGrid .standard
  obtain ⟨net, hnet⟩ := exists_windNetwork
  obtain ⟨net', hnet'⟩ := hiff.1 ⟨net, hnet⟩
  exact ⟨net, net', hnet, hnet', hsame net net' hnet hnet'⟩

end SupplyNet
