import Mathlib
import SupplyNet.Proofs.Linear.Rescaled
import SupplyNet.Proofs.Measure.Recounted
import SupplyNet.Proofs.Network.ColumnUnits
import SupplyNet.Proofs.Network.RenamedFlows

/-!
The flows of a node in other units. A given flow is converted with its unit, and a flow of columns
takes the factor of the columns, so both count in the units of the second catalogue.
-/
set_option autoImplicit false

namespace SupplyNet

/-- What is measured in a node carries its unit. A plain factor may only lead from a commodity to
the same one, and a node without conversions of its own takes in one commodity. -/
structure Node.Measured (nodes : List (Node Rat)) (n : Node Rat) : Prop where
  flow : ∀ flow ∈ n.role.profile?, n.kind ≠ .scalableInput → flow.unit.isSome = true
  costs : ∀ costs ∈ n.costs, costs.unit.isSome = true
  storage : ∀ storage ∈ n.storage, storage.costs.unit.isSome = true
  flowCosts : ∀ costs ∈ n.inputFlowCosts, costs.unit.isSome = true
  inputProportions : ∀ ratios ∈ n.inputProportions, ∀ e ∈ ratios.entries, e.2.unit.isSome = true
  outputProportions : ∀ ratios ∈ n.outputProportions, ∀ e ∈ ratios.entries, e.2.unit.isSome = true
  conversions : ∀ conversions ∈ n.conversions, ∀ e ∈ conversions.entries,
    e.2.factor.unit.isSome = true ∨ e.1 = e.2.source
  factor : n.conversions = none → n.convertFactor.unit.isSome = true ∨
    ∀ output ∈ outputNames nodes n, ∀ source ∈ inputNames nodes n, output = source
  single : n.conversions = none → (distinct (inputNames nodes n)).length ≤ 1

instance Node.decidableMeasured (nodes : List (Node Rat)) (n : Node Rat) :
    Decidable (n.Measured nodes) :=
  decidable_of_iff
    ((∀ flow ∈ n.role.profile?, n.kind ≠ .scalableInput → flow.unit.isSome = true) ∧
      (∀ costs ∈ n.costs, costs.unit.isSome = true) ∧
      (∀ storage ∈ n.storage, storage.costs.unit.isSome = true) ∧
      (∀ costs ∈ n.inputFlowCosts, costs.unit.isSome = true) ∧
      (∀ ratios ∈ n.inputProportions, ∀ e ∈ ratios.entries, e.2.unit.isSome = true) ∧
      (∀ ratios ∈ n.outputProportions, ∀ e ∈ ratios.entries, e.2.unit.isSome = true) ∧
      (∀ conversions ∈ n.conversions, ∀ e ∈ conversions.entries,
        e.2.factor.unit.isSome = true ∨ e.1 = e.2.source) ∧
      (n.conversions = none → n.convertFactor.unit.isSome = true ∨
        ∀ output ∈ outputNames nodes n, ∀ source ∈ inputNames nodes n, output = source) ∧
      (n.conversions = none → (distinct (inputNames nodes n)).length ≤ 1))
    ⟨fun ⟨h₁, h₂, h₃, h₄, h₅, h₆, h₇, h₈, h₉⟩ => ⟨h₁, h₂, h₃, h₄, h₅, h₆, h₇, h₈, h₉⟩,
      fun h => ⟨h.flow, h.costs, h.storage, h.flowCosts, h.inputProportions, h.outputProportions,
        h.conversions, h.factor, h.single⟩⟩

variable {σ : Var → Rat} {k : Rat} {factor : String → Rat}

/-! ## Flows -/

/-- The flow in other units. -/
def Flow.Rescaled (σ : Var → Rat) (k : Rat) (f f' : Flow Rat) : Prop :=
  List.Forall₂ (LinearExpr.Rescaled σ k) f.toList f'.toList

namespace Flow.Rescaled

variable {f f' : Flow Rat}

theorem atStep (h : f.Rescaled σ k f') (t : Nat) : (f.atStep t).Rescaled σ k (f'.atStep t) :=
  Flow.atStep_of_forall₂ h (.zero σ k) t

theorem total (h : f.Rescaled σ k f') : f.total.Rescaled σ k f'.total :=
  Flow.total_of_forall₂ h (.zero σ k) fun ha hb => ha.add hb

theorem ofVars {vs : Array Var} (h : ∀ v ∈ vs, σ v = k) :
    (Flow.ofVars vs : Flow Rat).Rescaled σ k (.ofVars vs) := by
  unfold Flow.Rescaled Flow.ofVars
  rw [Array.toList_map, List.forall₂_map_left_iff, List.forall₂_map_right_iff, List.forall₂_same]
  exact fun v hv => .ofVar (h v (Array.mem_toList_iff.1 hv))

theorem ofValues (k : Rat) (values : List Rat) :
    (Flow.ofValues values).Rescaled σ k (.ofValues (values.map (k * ·))) := by
  unfold Flow.Rescaled Flow.ofValues
  rw [List.map_map, List.forall₂_map_left_iff, List.forall₂_map_right_iff, List.forall₂_same]
  exact fun c _ => .ofConst rfl

theorem ofFactors {size : Option Var} (h : ∀ v, size = some v → σ v = k) (factors : List Rat) :
    (Flow.ofFactors size factors).Rescaled σ k (.ofFactors size factors) := by
  unfold Flow.Rescaled Flow.ofFactors
  rw [List.forall₂_map_left_iff, List.forall₂_map_right_iff, List.forall₂_same]
  intro c _
  cases size with
  | none => exact .zero σ k
  | some v => exact .term (by rw [h v rfl, mul_comm])

theorem sumAt {fs fs' : List (Flow Rat)} (h : List.Forall₂ (Flow.Rescaled σ k) fs fs') (t : Nat) :
    (Flow.sumAt fs t).Rescaled σ k (Flow.sumAt fs' t) :=
  .sum (List.forall₂_map_left_iff.2 (List.forall₂_map_right_iff.2 (h.imp fun _ _ hf => hf.atStep t)))

end Flow.Rescaled

/-! ## Streams -/

structure Stream.Rescaled (σ : Var → Rat) (factor : String → Rat) (s s' : Stream Rat) : Prop where
  neighbour : s'.neighbour = s.neighbour
  commodity : s'.commodity = s.commodity
  flow : s.flow.Rescaled σ (factor s.commodity) s'.flow

section Streams

variable {streams streams' : List (Stream Rat)}
variable (h : List.Forall₂ (Stream.Rescaled σ factor) streams streams')

include h

theorem commodities_of_rescaled : streams'.map (·.commodity) = streams.map (·.commodity) :=
  (map_eq_map_of_forall₂ h fun _ _ hs => hs.commodity.symm).symm

/-- Flows of one commodity have one factor. -/
theorem rescaled_flows {commodity : String} (hall : ∀ s ∈ streams, s.commodity = commodity) :
    List.Forall₂ (Flow.Rescaled σ (factor commodity)) (streams.map (·.flow))
      (streams'.map (·.flow)) := by
  rw [List.forall₂_map_left_iff, List.forall₂_map_right_iff]
  refine ((List.forall₂_and_left _ _).2 ⟨hall, h⟩).imp ?_
  rintro s s' ⟨rfl, hs⟩
  exact hs.flow

theorem rescaled_flowsOf (commodity : String) :
    List.Forall₂ (Flow.Rescaled σ (factor commodity)) (flowsOf streams commodity)
      (flowsOf streams' commodity) := by
  unfold flowsOf
  refine rescaled_flows (List.rel_filter ?_ h) fun s hs => ?_
  · intro s s' hs
    dsimp only
    rw [hs.commodity]
  · simpa using (List.mem_filter.1 hs).2

end Streams

/-! ## Storages -/

/-- All columns of a storage have one factor. -/
structure StorageVars.Counts (σ : Var → Rat) (k : Rat) (s : StorageVars) : Prop where
  size : σ s.size = k
  level : ∀ v ∈ s.level, σ v = k
  charge : ∀ v ∈ s.charge, σ v = k
  discharge : ∀ v ∈ s.discharge, σ v = k

theorem rescaled_termAt {vs : Array Var} (h : ∀ v ∈ vs, σ v = k) (t : Nat) (c : Rat) :
    (termAt vs t c).Rescaled σ k (termAt vs t c) := by
  unfold termAt
  cases hv : vs[t]? with
  | none => exact .zero σ k
  | some v => exact .term (by rw [h v (Array.mem_of_getElem? hv), mul_comm])

theorem rescaled_varAt {vs : Array Var} (h : ∀ v ∈ vs, σ v = k) (t : Nat) :
    (varAt vs t : LinearExpr Rat).Rescaled σ k (varAt vs t) :=
  rescaled_termAt h t 1

namespace StorageVars.Counts

variable {s : StorageVars} (h : s.Counts σ k) (hours : Rat) (t : Nat)

include h

theorem netChargeRate : (s.netChargeRate hours t).Rescaled σ k (s.netChargeRate hours t) :=
  ((rescaled_varAt h.charge t).sub (rescaled_varAt h.discharge t)).scale (mul_comm _ _)

theorem chargeRate : (s.chargeRate hours t).Rescaled σ k (s.chargeRate hours t) :=
  rescaled_termAt h.charge t _

end StorageVars.Counts

/-! ## Nodes -/

/-- The flows of a node in other units. The size and the storage count in those of a commodity, and
what a storage stores is all that the node puts out. -/
structure NodeFlows.Rescaled (σ : Var → Rat) (factor : String → Rat) (f f' : NodeFlows Rat) :
    Prop where
  size : f'.size = f.size
  sizeCommodity : f'.sizeCommodity = f.sizeCommodity
  storage : f'.storage = f.storage
  inflows : List.Forall₂ (Stream.Rescaled σ factor) f.inflows f'.inflows
  outflows : List.Forall₂ (Stream.Rescaled σ factor) f.outflows f'.outflows
  sized : ∀ v, f.size = some v → ∃ commodity, f.sizeCommodity = some commodity ∧
    σ v = factor commodity
  stored : ∀ s, f.storage = some s → ∃ commodity, f.sizeCommodity = some commodity ∧
    s.Counts σ (factor commodity) ∧ ∀ o ∈ f.outflows, o.commodity = commodity

/-- Nodes whose measures are converted to the units of two catalogues. -/
structure Recounting (nodes : List (Node Rat)) (catalogue catalogue' : Catalogue Rat) : Prop where
  wired : Wired nodes
  names_nodup : ((variableKeys nodes).map (·.name)).Nodup
  built : ∀ n ∈ nodes, n.Built
  measured : ∀ n ∈ nodes, n.Measured nodes
  comparable : catalogue.Comparable catalogue'
  formed : catalogue.Formed
  formed' : catalogue'.Formed

namespace Recounting

variable {nodes : List (Node Rat)} {catalogue catalogue' : Catalogue Rat} {n : Node Rat}
variable {c : NodeCommodities} {steps : Nat} (h : Recounting nodes catalogue catalogue')

include h

theorem inputs_nodup : ∀ n ∈ nodes, n.inputs.Nodup := fun n hn => (h.built n hn).inputs_nodup.2

theorem factor_pos (commodity : String) : 0 < catalogue.factor catalogue' commodity :=
  Catalogue.factor_pos h.formed h.formed' commodity

theorem factor_ne_zero (commodity : String) : catalogue.factor catalogue' commodity ≠ 0 :=
  (h.factor_pos commodity).ne'

theorem carries_unitOf (commodity : String) :
    Carries (Measure.Unit.Recounted (catalogue.factor catalogue' commodity))
      (catalogue.unitOf commodity) (catalogue'.unitOf commodity) :=
  h.comparable.carries_unitOf h.formed' commodity

/-- The commodities of a node do not depend on their units. -/
theorem settle {served : List Outlet} (hc : n.settle catalogue served = .ok c) :
    n.settle catalogue' served = .ok c := by
  obtain ⟨ho, hi, hchecks⟩ := Node.settle_eq_ok_iff.1 hc
  obtain ⟨hfault, hratios, hunits, hsize⟩ := Node.commodities_eq_ok_iff.1 hchecks
  refine Node.settle_eq_ok_iff.2 ⟨ho, hi, Node.commodities_eq_ok_iff.2
    ⟨hfault, hratios, fun commodity hm => ?_, hsize⟩⟩
  obtain ⟨unit, hunit⟩ := hunits commodity hm
  obtain ⟨unit', hunit', -⟩ := h.carries_unitOf commodity unit hunit
  exact ⟨unit', hunit'⟩

theorem carries_flowIn (commodity : String) {profile : Series Rat}
    (hp : profile.unit.isSome = true) :
    Carries (Flow.Rescaled σ (catalogue.factor catalogue' commodity))
      (Node.flowIn catalogue [commodity] profile) (Node.flowIn catalogue' [commodity] profile) := by
  refine ((h.carries_unitOf commodity).mapError _).bind fun u u' hu => ?_
  refine ((hu.carries_valuesIn (h.factor_ne_zero _) hp).mapError _).bind fun values values' hv => ?_
  rw [hv]
  exact Carries.ok (.ofValues _ values)

/-! ## Flows in a model -/

variable (hσ : σ = (registry nodes steps).columnFactor nodes (catalogue.factor catalogue'))
variable (hn : n ∈ nodes)

include hσ

theorem rescaled_flowOf {k : VariableKey} (hk : k ∈ variableKeys nodes)
    (hs : k.steps? steps = some steps) {commodity : String}
    (hcommodity : k.commodityIn nodes = commodity) :
    ((registry nodes steps).flowOf k).Rescaled σ (catalogue.factor catalogue' commodity)
      ((registry nodes steps).flowOf k) := by
  rw [hσ, ← hcommodity]
  exact .ofVars (columnFactor_of_mem_seriesOf h.names_nodup hk hs)

include hn

theorem sized (hsize : n.hasSize = true) : σ ((registry nodes steps).scalarOf (.size n.name)) =
    catalogue.factor catalogue' (n.sizeName nodes) := by
  rw [hσ, columnFactor_scalarOf h.names_nodup (mem_variableKeys_size hn hsize) rfl]
  exact congrArg _ (nodeText_eq h.wired hn _)

theorem counts (hst : n.storage.isSome = true) :
    ((registry nodes steps).storageOf n.name).Counts σ
      (catalogue.factor catalogue' (n.sizeName nodes)) := by
  have hkeys := mem_variableKeys_storage hn hst
  have hcommodity := commodityIn_storage h.wired hn
  have hseries : ∀ k ∈ n.storageKeys, k.steps? steps = some steps →
      ∀ v ∈ (registry nodes steps).seriesOf k,
        σ v = catalogue.factor catalogue' (n.sizeName nodes) := by
    intro k hk hs v hv
    rw [hσ, columnFactor_of_mem_seriesOf h.names_nodup (hkeys k hk) hs v hv, hcommodity k hk]
  refine ⟨?_, hseries (.level n.name) (by simp [Node.storageKeys]) rfl,
    hseries (.charge n.name) (by simp [Node.storageKeys]) rfl,
    hseries (.discharge n.name) (by simp [Node.storageKeys]) rfl⟩
  have hsize : .storageSize n.name ∈ n.storageKeys := by simp [Node.storageKeys]
  unfold Model.storageOf
  rw [hσ, columnFactor_scalarOf h.names_nodup (hkeys _ hsize) rfl, hcommodity _ hsize]

theorem carries_leafInflow (hc : n.settle catalogue (outlets nodes n.name) = .ok c)
    (hleaf : n.inlets = []) :
    Carries (Flow.Rescaled σ (catalogue.factor catalogue' (n.leafInputName nodes)))
      (n.leafInflow catalogue (n.leafInputName nodes) (registry nodes steps))
      (n.leafInflow catalogue' (n.leafInputName nodes) (registry nodes steps)) := by
  have hown : ¬n.kind.isInput → ((registry nodes steps).flowOf (.inflow n.name)).Rescaled σ
      (catalogue.factor catalogue' (n.leafInputName nodes))
      ((registry nodes steps).flowOf (.inflow n.name)) := fun hk =>
    h.rescaled_flowOf hσ (mem_variableKeys_inflow hn hk hleaf) rfl (nodeText_eq h.wired hn _)
  unfold Node.leafInflow
  cases hr : n.role with
  | fixedInput flow =>
    refine h.carries_flowIn _ ((h.measured n hn).flow flow ?_ ?_)
    · rw [hr]
      rfl
    · simp [Node.kind, hr, Role.kind]
  | scalableInput factors =>
    have hk : n.kind = .scalableInput := by rw [Node.kind, hr]; rfl
    refine Carries.bind_same fun values _ => Carries.ok (.ofFactors (fun v hv => ?_) values)
    unfold Node.sizeIn at hv
    split at hv
    · next hsize =>
      rw [← Option.some.inj hv, h.sized hσ hn hsize,
        Node.leafInputName_of_scalableInput (h.built n hn) hk hc]
    · exact absurd hv (by simp)
  | fixedOutput | scalableOutput | generic =>
    exact Carries.ok (hown (by simp [Node.kind, hr, Role.kind, NodeKind.isInput, NodeKind.part]))

theorem carries_leafOutflow (hleaf : outlets nodes n.name = []) :
    Carries (Flow.Rescaled σ (catalogue.factor catalogue' n.leafOutputName))
      (n.leafOutflow catalogue n.leafOutputName (registry nodes steps))
      (n.leafOutflow catalogue' n.leafOutputName (registry nodes steps)) := by
  have hown : n.kind ≠ .fixedOutput → ((registry nodes steps).flowOf (.outflow n.name)).Rescaled σ
      (catalogue.factor catalogue' n.leafOutputName)
      ((registry nodes steps).flowOf (.outflow n.name)) := fun hk =>
    h.rescaled_flowOf hσ (mem_variableKeys_outflow hn hk hleaf) rfl (nodeText_eq h.wired hn _)
  unfold Node.leafOutflow
  cases hr : n.role with
  | fixedOutput inputs flow =>
    refine h.carries_flowIn _ ((h.measured n hn).flow flow ?_ ?_)
    · rw [hr]
      rfl
    · simp [Node.kind, hr, Role.kind]
  | fixedInput | scalableInput | scalableOutput | generic =>
    exact Carries.ok (hown (by simp [Node.kind, hr, Role.kind]))

theorem carries_inStreams (hc : n.settle catalogue (outlets nodes n.name) = .ok c) :
    Carries (List.Forall₂ (Stream.Rescaled σ (catalogue.factor catalogue')))
      (n.inStreams catalogue c (registry nodes steps))
      (n.inStreams catalogue' c (registry nodes steps)) := by
  unfold Node.inStreams
  split
  · next hleaf =>
    rw [Node.inflow_eq_leafInputName hc hleaf]
    exact (h.carries_leafInflow hσ hn hc hleaf).map fun _ _ hf => .cons ⟨rfl, rfl, hf⟩ .nil
  · refine Carries.ok ?_
    rw [List.forall₂_map_left_iff, List.forall₂_map_right_iff, List.forall₂_same]
    exact fun inlet hi => ⟨rfl, rfl, h.rescaled_flowOf hσ (mem_variableKeys_edge hn hi) rfl
      (commodityIn_inlet h.wired h.inputs_nodup hn hi)⟩

theorem carries_outStreams (hc : n.settle catalogue (outlets nodes n.name) = .ok c) :
    Carries (List.Forall₂ (Stream.Rescaled σ (catalogue.factor catalogue')))
      (n.outStreams catalogue (outlets nodes n.name) c (registry nodes steps))
      (n.outStreams catalogue' (outlets nodes n.name) c (registry nodes steps)) := by
  unfold Node.outStreams
  split
  · next hleaf =>
    obtain ⟨commodity, hname, hout⟩ := Node.outflow_of_leaf hc hleaf
    rw [hout, ← Node.leafOutputName_eq hname]
    exact (h.carries_leafOutflow hσ hn hleaf).map fun _ _ hf => .cons ⟨rfl, rfl, hf⟩ .nil
  · refine Carries.ok ?_
    rw [List.forall₂_map_left_iff, List.forall₂_map_right_iff, List.forall₂_same]
    exact fun o ho => ⟨rfl, rfl, h.rescaled_flowOf hσ (mem_variableKeys_outlet ho) rfl
      (commodityIn_outlet h.wired h.inputs_nodup ho)⟩

/-- The flows of a node can be read in both units. -/
theorem exists_bound {f : NodeFlows Rat}
    (hf : n.Bound catalogue (outlets nodes n.name) (registry nodes steps) c f) :
    ∃ f', n.Bound catalogue' (outlets nodes n.name) (registry nodes steps) c f' ∧
      f.Rescaled σ (catalogue.factor catalogue') f' := by
  obtain ⟨inflows, hin, hins⟩ := h.carries_inStreams hσ hn hf.settled _ hf.inflows
  obtain ⟨outflows, hout, houts⟩ := h.carries_outStreams hσ hn hf.settled _ hf.outflows
  have hsize : (n.hasSize || n.storage.isSome) = true →
      f.sizeCommodity = some (n.sizeName nodes) := fun hs => by
    rw [hf.sizeCommodity, Node.size_eq_sizeName hf.settled hs]
  refine ⟨⟨f.size, f.sizeCommodity, f.storage, inflows, outflows⟩,
    ⟨h.settle hf.settled, hf.size, hf.sizeCommodity, hf.storage, hin, hout⟩,
    ⟨rfl, rfl, rfl, hins, houts, fun v hv => ?_, fun s hs => ?_⟩⟩
  · rw [hf.size, Node.sizeIn] at hv
    split at hv
    · next hhas =>
      rw [← Option.some.inj hv]
      exact ⟨_, hsize (by simp [hhas]), h.sized hσ hn hhas⟩
    · exact absurd hv (by simp)
  · rw [hf.storage, Node.storageIn] at hs
    split at hs
    · next hhas =>
      have hcommodity := hsize (by simp [hhas])
      rw [← Option.some.inj hs]
      refine ⟨_, hcommodity, h.counts hσ hn hhas, fun o ho => ?_⟩
      rw [hf.sizeCommodity, Node.outflow_of_storage hf.settled hhas o.commodity] at hcommodity
      · exact Option.some.inj hcommodity
      · rw [Node.outflow_eq_outputNames hf.settled, ← Node.map_commodity_outflows hf]
        exact List.mem_map_of_mem ho
    · exact absurd hs (by simp)

end Recounting

end SupplyNet
