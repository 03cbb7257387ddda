import Mathlib
import SupplyNet.Proofs.Network.Streams
import SupplyNet.Proofs.Related

/-!
Networks in parts. What is made of a node depends on the node, on its outlets and on the columns, so
a network is built if each node can be made into its part, and then it is put together from these.
-/
set_option autoImplicit false

namespace SupplyNet

variable {K : Type} [Scalar K]

/-- What is made of a node: its commodities and flows, its conditions in groups, and its costs. -/
structure Part (K : Type) where
  commodities : NodeCommodities
  flows : NodeFlows K
  rows : List (Rows K)
  costs : LinearExpr K

/-- The part that a node makes up among others. -/
structure Node.Makes (nodes : List (Node K)) (grid : Grid) (config : Config K)
    (currency : Measure.Unit K) (n : Node K) (p : Part K) : Prop where
  settled : n.settle config.catalogue (outlets nodes n.name) = .ok p.commodities
  flows : n.flowsIn config.catalogue (outlets nodes n.name) p.commodities
    (registry nodes grid.size) = .ok p.flows
  rows : n.rows config.catalogue grid.size grid.hours p.flows = p.rows.map .ok
  admissible : ∀ c ∈ p.rows.flatten, c.Admissible
  costs : n.totalCosts config.catalogue currency grid.hours p.flows = .ok p.costs

theorem Node.Makes.bound {nodes : List (Node K)} {grid : Grid} {config : Config K}
    {currency : Measure.Unit K} {n : Node K} {p : Part K}
    (h : n.Makes nodes grid config currency p) (hw : Wired nodes) (hn : n ∈ nodes) :
    n.Bound config.catalogue (outlets nodes n.name) (registry nodes grid.size) p.commodities
      p.flows :=
  bound_of_flowsIn h.settled (hw.not_isOutput_of_served hn) h.flows

/-- The network of some nodes and the parts made of them. -/
def Network.assembled (nodes : List (Node K)) (grid : Grid) (config : Config K)
    (parts : List (Part K)) : Network K :=
  ⟨⟨nodes, Graph.edgesOf nodes⟩, grid, config, parts.map (·.flows),
    { registry nodes grid.size with
      constraints := (Constraint.stored (parts.flatMap (·.rows)).flatten).toArray
      objective := .sum (parts.map (·.costs)) }, none⟩

theorem objective_eq_ok_iff {catalogue : Catalogue K} {currency : Measure.Unit K} {hours : K}
    {l : List (Node K × NodeFlows K)} {e : LinearExpr K} :
    objective catalogue currency hours l = .ok e ↔ ∃ es,
      List.Forall₂ (fun p e => p.1.totalCosts catalogue currency hours p.2 = .ok e) l es ∧
        e = .sum es :=
  foldlM_eq_ok_iff

section Parts

variable {nodes : List (Node K)} {grid : Grid} {config : Config K} {currency : Measure.Unit K}
variable {parts : List (Part K)} {cs : List NodeCommodities} {groups : List (Rows K)}
variable {net : Network K}

/-! ## From a network to its parts -/

theorem Compiled.exists_part (h : Compiled nodes grid config cs groups net)
    {es : List (LinearExpr K)} (hcosts : List.Forall₂ (fun p e =>
      p.1.totalCosts config.catalogue currency grid.hours p.2 = .ok e) (nodes.zip net.flows) es)
    {i : Nat} {n : Node K} (hn : nodes[i]? = some n) :
    ∃ p : Part K, n.Makes nodes grid config currency p ∧
      net.flows[i]? = some p.flows ∧ es[i]? = some p.costs := by
  have hes : es.length = nodes.length := by
    rw [← hcosts.length_eq, List.length_zip, h.length_flows, Nat.min_self]
  have hi := (List.getElem?_eq_some_iff.1 hn).1
  have hc := List.getElem?_eq_getElem (h.settled.length_eq ▸ hi)
  have he := List.getElem?_eq_getElem (hes ▸ hi)
  obtain ⟨f, hf⟩ : ∃ f, net.flows[i]? = some f :=
    ⟨_, List.getElem?_eq_getElem (h.length_flows ▸ hi)⟩
  have hrow : ∀ r ∈ n.rows config.catalogue grid.size grid.hours f, r ∈ groups.map .ok := by
    intro r hr
    rw [← h.rows]
    exact List.mem_flatMap.2 ⟨(n, _), List.mem_of_getElem? (getElem?_zip_of hn hf), hr⟩
  obtain ⟨rows, hrows⟩ := exists_eq_map_ok fun r hr => by
    obtain ⟨rows, -, he⟩ := List.mem_map.1 (hrow r hr)
    exact ⟨rows, he.symm⟩
  refine ⟨⟨_, _, rows, _⟩, ⟨(forall₂_iff_getElem?.1 h.settled).2 i n _ hn hc,
    (forall₂_iff_getElem?.1 h.flows).2 i _ _ (getElem?_zip_of hn hc) hf, hrows, fun d hd => ?_,
    (forall₂_iff_getElem?.1 hcosts).2 i _ _ (getElem?_zip_of hn hf) he⟩, hf, he⟩
  obtain ⟨group, hgroup, hd⟩ := List.mem_flatten.1 hd
  obtain ⟨group', hg, heq⟩ := List.mem_map.1 (hrow (.ok group) (hrows ▸ List.mem_map_of_mem hgroup))
  exact h.admissible d (List.mem_flatten.2 ⟨group, Except.ok.inj heq ▸ hg, hd⟩)

/-- All conditions are those of the parts, part by part. -/
theorem flatMap_rows (h : List.Forall₂ (Node.Makes nodes grid config currency) nodes parts) :
    ((nodes.zip (parts.map (·.flows))).flatMap fun p =>
      p.1.rows config.catalogue grid.size grid.hours p.2) = (parts.flatMap (·.rows)).map .ok := by
  have hmap := map_eq_map_of_forall₂ (forall₂_zip_map h (·.flows))
    (f := fun q => q.1.rows config.catalogue grid.size grid.hours q.2)
    (g := fun p => p.rows.map .ok) fun q p ⟨hmakes, hflows⟩ => by
      rw [hflows]
      exact hmakes.rows
  rw [List.flatMap_def, hmap, List.map_flatMap, List.flatMap_def]

/-- A built network consists of the parts of its nodes. -/
theorem Compiled.exists_parts (h : Compiled nodes grid config cs groups net) :
    ∃ currency parts, Measure.Unit.read config.currency = .ok currency ∧
      List.Forall₂ (Node.Makes nodes grid config currency) nodes parts ∧
      net = .assembled nodes grid config parts := by
  obtain ⟨currency, hcurrency, hobjective⟩ := h.costs
  obtain ⟨es, hcosts, hsum⟩ := objective_eq_ok_iff.1 hobjective
  obtain ⟨parts, hparts⟩ := exists_forall₂ (l := nodes.zipIdx) fun q hq =>
    h.exists_part hcosts (List.mk_mem_zipIdx_iff_getElem?.1 hq)
  have hmakes : List.Forall₂ (Node.Makes nodes grid config currency) nodes parts := by
    have hfst := (List.forall₂_map_left_iff (f := Prod.fst)).2 (hparts.imp fun q p hq => hq.1)
    rw [List.zipIdx_map_fst] at hfst
    exact hfst
  have hflows := map_eq_of_forall₂_zipIdx (g := Part.flows) hparts h.length_flows
    fun q p hq => hq.2.1
  have hes : es.length = nodes.length := by
    rw [← hcosts.length_eq, List.length_zip, h.length_flows, Nat.min_self]
  have hsums := map_eq_of_forall₂_zipIdx (g := Part.costs) hparts hes fun q p hq => hq.2.2
  have hgroups : groups = parts.flatMap (·.rows) := by
    have hrows := flatMap_rows hmakes
    rw [hflows, h.rows] at hrows
    exact List.map_injective_iff.2 (fun _ _ => Except.ok.inj) hrows
  refine ⟨currency, parts, hcurrency, hmakes, ?_⟩
  have hmodel := h.model
  rw [hsum, hgroups, ← hsums] at hmodel
  unfold Network.assembled
  rw [hflows, ← hmodel]
  exact h.network

/-! ## From parts to a network -/

/-- The parts of all nodes make a network, if the nodes make a graph and the names differ. -/
theorem compiled_assembled (hw : Wired nodes)
    (hv : Graph.validate ⟨nodes, Graph.edgesOf nodes⟩ grid = .ok ())
    (hnames : ((variableKeys nodes).map (·.name)).Nodup)
    (hcurrency : Measure.Unit.read config.currency = .ok currency)
    (h : List.Forall₂ (Node.Makes nodes grid config currency) nodes parts) :
    Compiled nodes grid config (parts.map (·.commodities)) (parts.flatMap (·.rows))
      (.assembled nodes grid config parts) := by
  have hmem : ∀ p ∈ parts, ∃ n, Node.Makes nodes grid config currency n p :=
    (Matched.of_forall₂ h).forall_mem fun n _ p hp => ⟨n, hp⟩
  refine ⟨hw, hv, ?_, hnames, ?_, flatMap_rows h, ?_, ⟨currency, hcurrency, ?_⟩, rfl, rfl⟩
  · exact List.forall₂_map_right_iff.2 (h.imp fun n p hp => hp.settled)
  · refine List.forall₂_map_right_iff.2 ((forall₂_zip_map h (·.commodities)).imp ?_)
    rintro ⟨n, c⟩ p ⟨hp, rfl⟩
    exact hp.flows
  · intro c hc
    obtain ⟨group, hgroup, hc⟩ := List.mem_flatten.1 hc
    obtain ⟨p, hp, hgroup⟩ := List.mem_flatMap.1 hgroup
    obtain ⟨n, hmakes⟩ := hmem p hp
    exact hmakes.admissible c (List.mem_flatten.2 ⟨group, hgroup, hc⟩)
  · refine objective_eq_ok_iff.2 ⟨_, List.forall₂_map_right_iff.2
      ((forall₂_zip_map h (·.flows)).imp ?_), rfl⟩
    rintro ⟨n, f⟩ p ⟨hp, rfl⟩
    exact hp.costs

/-- A network is built exactly if each node makes its part, and then it consists of these. -/
theorem Network.build_eq_ok_iff_parts :
    build nodes grid config = .ok net ↔ Wired nodes ∧
      Graph.validate ⟨nodes, Graph.edgesOf nodes⟩ grid = .ok () ∧
      ((variableKeys nodes).map (·.name)).Nodup ∧
      ∃ currency parts, Measure.Unit.read config.currency = .ok currency ∧
        List.Forall₂ (Node.Makes nodes grid config currency) nodes parts ∧
        net = .assembled nodes grid config parts := by
  rw [build_eq_ok_iff]
  constructor
  · rintro ⟨cs, groups, h⟩
    exact ⟨h.wired, h.valid, h.names_nodup, h.exists_parts⟩
  · rintro ⟨hw, hv, hnames, currency, parts, hcurrency, h, rfl⟩
    exact ⟨_, _, compiled_assembled hw hv hnames hcurrency h⟩

end Parts

end SupplyNet
