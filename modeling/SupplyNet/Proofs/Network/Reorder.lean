import Mathlib
import SupplyNet.Proofs.Keyed
import SupplyNet.Proofs.Network.Commodities
import SupplyNet.Proofs.Network.Validation
import SupplyNet.Proofs.Network.Wiring

/-!
The same nodes in another order. The graph, the commodities and the variables are the same but for
their order; the outlets of a node come in the order of the nodes that they lead to.
-/
set_option autoImplicit false

namespace SupplyNet

variable {K : Type} [Scalar K] {nodes nodes' : List (Node K)}

/-! ## Graphs -/

theorem outlets_perm (h : nodes.Perm nodes') (name : String) :
    (outlets nodes name).Perm (outlets nodes' name) := h.flatMap_right _

theorem outlets_eq_nil_iff_of_perm (h : nodes.Perm nodes') (name : String) :
    outlets nodes name = [] ↔ outlets nodes' name = [] := by
  rw [← List.length_eq_zero_iff, ← List.length_eq_zero_iff, (outlets_perm h name).length_eq]

theorem Wired.of_perm (hw : Wired nodes) (h : nodes.Perm nodes') : Wired nodes' := by
  refine ⟨(h.map _).nodup_iff.1 hw.names_nodup, fun n hn input hi => ?_, fun n hn m hm => ?_⟩
  · obtain ⟨m, hm, hname⟩ := hw.known n (h.mem_iff.2 hn) input hi
    exact ⟨m, h.mem_iff.1 hm, hname⟩
  · exact hw.not_output n (h.mem_iff.2 hn) m (h.mem_iff.2 hm)

theorem linked_of_perm (h : nodes.Perm nodes') : Linked nodes = Linked nodes' := by
  funext a b
  unfold Linked
  simp only [h.mem_iff]

theorem validate_of_perm (hw : Wired nodes) (h : nodes.Perm nodes') {grid : Grid}
    (hv : Graph.validate ⟨nodes, Graph.edgesOf nodes⟩ grid = .ok ()) :
    Graph.validate ⟨nodes', Graph.edgesOf nodes'⟩ grid = .ok () := by
  obtain ⟨hne, hgrid, hlinked⟩ := (Graph.validate_eq_ok_iff hw).1 hv
  refine (Graph.validate_eq_ok_iff (hw.of_perm h)).2 ⟨fun hnil => ?_, fun n hn => ?_, ?_⟩
  · exact hne (List.perm_nil.1 (hnil ▸ h))
  · exact hgrid n (h.mem_iff.2 hn)
  · rw [← linked_of_perm h]
    exact fun n hn m hm => hlinked n (h.mem_iff.2 hn) m (h.mem_iff.2 hm)

/-! ## Commodities -/

theorem distinct_of_perm {l l' : List String} (h : l.Perm l') : distinct l = distinct l' :=
  distinct_congr fun _ => h.mem_iff

namespace Node

variable {n : Node K} {catalogue : Catalogue K} {served served' : List Outlet} {c : NodeCommodities}

/-- An input flow out of nowhere has a commodity that does not depend on the order of the output
flows. -/
theorem inflow_congr {outflow outflow' : List String} (h : distinct outflow = distinct outflow') :
    n.inflow outflow = n.inflow outflow' := by
  unfold inflow leafInput single?
  rw [h]

/-- The commodities of a node whose outlets come in another order. -/
def commoditiesOver (served : List Outlet) (c : NodeCommodities) : NodeCommodities :=
  if served = [] then c else { c with outflow := served.map (·.commodity) }

theorem outflow_commoditiesOver (hc : n.settle catalogue served = .ok c) (h : served.Perm served') :
    c.outflow.Perm (commoditiesOver served' c).outflow := by
  unfold commoditiesOver
  split
  · exact .refl _
  · next hne =>
    have hserved : served ≠ [] := fun hnil => hne (List.nil_perm.1 (hnil ▸ h))
    have ho := (outflow_eq_ok_iff.1 (settle_eq_ok_iff.1 hc).1).1
    rw [if_neg (by simpa using hserved)] at ho
    rw [ho]
    exact h.map _

/-- Which commodities a node has does not depend on the order of its outlets. -/
theorem settle_of_perm (hc : n.settle catalogue served = .ok c) (h : served.Perm served') :
    n.settle catalogue served' = .ok (commoditiesOver served' c) := by
  have hperm := outflow_commoditiesOver hc h
  have hdistinct := distinct_of_perm hperm
  have hin : (commoditiesOver served' c).inflow = c.inflow := by
    unfold commoditiesOver
    split <;> rfl
  have hsize : (commoditiesOver served' c).size = c.size := by
    unfold commoditiesOver
    split <;> rfl
  obtain ⟨ho, hi, hchecks⟩ := settle_eq_ok_iff.1 hc
  obtain ⟨hedges, hdeclared⟩ := outflow_eq_ok_iff.1 ho
  obtain ⟨hfault, hratios, hunits, size, hamong, hsize'⟩ := commodities_eq_ok_iff.1 hchecks
  have hcsize : c.size = size := congrArg NodeCommodities.size hsize'
  refine settle_eq_ok_iff.2 ⟨outflow_eq_ok_iff.2 ⟨?_, fun declared hd commodity hm => ?_⟩, ?_, ?_⟩
  · unfold commoditiesOver
    by_cases hnil : served' = []
    · have hserved : served = [] := List.perm_nil.1 (hnil ▸ h)
      rw [hserved, List.map_nil, if_pos rfl] at hedges
      rw [hnil, List.map_nil, if_pos rfl, if_pos rfl]
      exact hedges
    · rw [if_neg (by simpa using hnil), if_neg hnil]
  · exact hdeclared declared hd commodity (hperm.mem_iff.2 hm)
  · rw [← inflow_congr hdistinct, hin]
    exact hi
  · refine commodities_eq_ok_iff.2 ⟨hdistinct ▸ hfault, fun ratios hr => ?_, fun commodity hm => ?_,
      size, hdistinct ▸ hamong, ?_⟩
    · have hfault := hratios ratios hr
      unfold proportionFault at hfault ⊢
      rw [← hdistinct, ← distinct_of_perm (h.map (·.target))]
      exact hfault
    · rw [hin] at hm
      exact hunits commodity ((hperm.append_left c.inflow).mem_iff.2 hm)
    · rw [← hcsize, ← hsize]

end Node

/-! ## Variables -/

theorem leafKeys_congr (n : Node K) {served served' : List Outlet}
    (h : served = [] ↔ served' = []) : n.leafKeys served = n.leafKeys served' := by
  unfold Node.leafKeys
  simp only [ne_eq, h]

theorem variableKeys_perm (h : nodes.Perm nodes') :
    (variableKeys nodes).Perm (variableKeys nodes') := by
  unfold variableKeys
  have hleaf : (nodes.flatMap fun n => n.leafKeys (outlets nodes n.name)) =
      nodes.flatMap fun n => n.leafKeys (outlets nodes' n.name) := by
    refine List.flatMap_congr fun n _ => ?_
    exact leafKeys_congr n (outlets_eq_nil_iff_of_perm h n.name)
  rw [hleaf]
  exact (h.flatMap_right _).append (h.flatMap_right _)

end SupplyNet
