import Mathlib
import SupplyNet.Proofs.Linear.Renamed
import SupplyNet.Proofs.Network.Counterparts
import SupplyNet.Proofs.Network.Streams

/-!
The flows of a node over renamed columns. If the nodes come in another order, the flows of each node
are the same but for the columns, and its output flows may be in another order too.
-/
set_option autoImplicit false

namespace SupplyNet

variable {φ : Var ≃ Var}

/-! ## Flows -/

section Related

variable {R : LinearExpr Rat → LinearExpr Rat → Prop} {f f' : Flow Rat}
variable (h : List.Forall₂ R f.toList f'.toList) (hzero : R 0 0)

include h hzero

/-- What relates two flows step by step relates their values after the last step too. -/
theorem Flow.atStep_of_forall₂ (t : Nat) : R (f.atStep t) (f'.atStep t) := by
  unfold Flow.atStep
  rw [← Array.getElem?_toList, ← Array.getElem?_toList]
  by_cases ht : t < f.toList.length
  · have ht' : t < f'.toList.length := h.length_eq ▸ ht
    rw [List.getElem?_eq_getElem ht, List.getElem?_eq_getElem ht']
    exact (forall₂_iff_getElem?.1 h).2 t _ _ (List.getElem?_eq_getElem ht)
      (List.getElem?_eq_getElem ht')
  · have ht' : ¬t < f'.toList.length := h.length_eq ▸ ht
    rw [List.getElem?_eq_none (not_lt.1 ht), List.getElem?_eq_none (not_lt.1 ht')]
    exact hzero

theorem Flow.total_of_forall₂ (hadd : ∀ {a a' b b'}, R a a' → R b b' → R (a + b) (a' + b')) :
    R f.total f'.total := by
  unfold Flow.total
  rw [← Array.foldr_toList, ← Array.foldr_toList]
  generalize f.toList = es, f'.toList = es' at h
  induction h with
  | nil => exact hzero
  | cons he _ ih => exact hadd ih he

end Related

/-- The flow over the columns of the new names. -/
def Flow.Renamed (φ : Var ≃ Var) (f f' : Flow Rat) : Prop :=
  List.Forall₂ (LinearExpr.Renamed φ) f.toList f'.toList

namespace Flow.Renamed

variable {f f' : Flow Rat}

theorem atStep (h : f.Renamed φ f') (t : Nat) : (f.atStep t).Renamed φ (f'.atStep t) :=
  Flow.atStep_of_forall₂ h .zero t

theorem total (h : f.Renamed φ f') : f.total.Renamed φ f'.total :=
  Flow.total_of_forall₂ h .zero fun ha hb => ha.add hb

theorem ofVars (vs : Array Var) : (Flow.ofVars vs : Flow Rat).Renamed φ (.ofVars (vs.map φ)) := by
  unfold Flow.Renamed Flow.ofVars
  rw [Array.toList_map, Array.toList_map, Array.toList_map, List.map_map, List.forall₂_map_left_iff,
    List.forall₂_map_right_iff, List.forall₂_same]
  exact fun v _ => .ofVar v

theorem ofValues (values : List Rat) : (Flow.ofValues values).Renamed φ (.ofValues values) := by
  unfold Flow.Renamed Flow.ofValues
  rw [List.forall₂_map_left_iff, List.forall₂_map_right_iff, List.forall₂_same]
  exact fun c _ => .ofConst c

theorem ofFactors (size : Option Var) (factors : List Rat) :
    (Flow.ofFactors size factors).Renamed φ (.ofFactors (size.map φ) factors) := by
  unfold Flow.Renamed Flow.ofFactors
  rw [List.forall₂_map_left_iff, List.forall₂_map_right_iff, List.forall₂_same]
  intro c _
  cases size with
  | none => exact .zero
  | some v => exact .term v c

theorem sumAt {fs fs' : List (Flow Rat)} (h : Matched (Flow.Renamed φ) fs fs') (t : Nat) :
    (Flow.sumAt fs t).Renamed φ (Flow.sumAt fs' t) :=
  .sum (h.map fun _ _ hf => hf.atStep t)

/-- Flows of given values have no columns. -/
theorem flowIn {catalogue : Catalogue Rat} {commodities : List String} {profile : Series Rat} :
    Carries (Flow.Renamed φ) (Node.flowIn catalogue commodities profile)
      (Node.flowIn catalogue commodities profile) :=
  Carries.bind_same fun _ _ => Carries.bind_same fun values _ => Carries.ok (ofValues values)

end Flow.Renamed

/-! ## Streams -/

structure Stream.Renamed (φ : Var ≃ Var) (s s' : Stream Rat) : Prop where
  neighbour : s'.neighbour = s.neighbour
  commodity : s'.commodity = s.commodity
  flow : s.flow.Renamed φ s'.flow

section Streams

variable {streams streams' : List (Stream Rat)}

theorem matched_flowsOf (h : Matched (Stream.Renamed φ) streams streams') (commodity : String) :
    Matched (Flow.Renamed φ) (flowsOf streams commodity) (flowsOf streams' commodity) :=
  (h.filter fun s s' hs => by rw [hs.commodity]).map fun _ _ hs => hs.flow

theorem matched_flows (h : Matched (Stream.Renamed φ) streams streams') :
    Matched (Flow.Renamed φ) (streams.map (·.flow)) (streams'.map (·.flow)) :=
  h.map fun _ _ hs => hs.flow

theorem distinct_commodities (h : Matched (Stream.Renamed φ) streams streams') :
    distinct (streams'.map (·.commodity)) = distinct (streams.map (·.commodity)) :=
  (distinct_of_perm (h.perm_map fun _ _ hs => hs.commodity.symm)).symm

end Streams

/-! ## Storages -/

namespace StorageVars

def rename (φ : Var ≃ Var) (s : StorageVars) : StorageVars :=
  ⟨φ s.size, s.level.map φ, s.charge.map φ, s.discharge.map φ⟩

theorem renamed_termAt (vs : Array Var) (t : Nat) (c : Rat) :
    (termAt vs t c).Renamed φ (termAt (vs.map φ) t c) := by
  unfold termAt
  rw [Array.getElem?_map]
  cases vs[t]? with
  | none => exact .zero
  | some v => exact .term v c

theorem renamed_varAt (vs : Array Var) (t : Nat) :
    (varAt vs t : LinearExpr Rat).Renamed φ (varAt (vs.map φ) t) :=
  renamed_termAt vs t 1

theorem renamed_netChargeRate (s : StorageVars) (hours : Rat) (t : Nat) :
    (s.netChargeRate hours t).Renamed φ ((s.rename φ).netChargeRate hours t) :=
  ((renamed_varAt s.charge t).sub (renamed_varAt s.discharge t)).scale _

theorem renamed_chargeRate (s : StorageVars) (hours : Rat) (t : Nat) :
    (s.chargeRate hours t).Renamed φ ((s.rename φ).chargeRate hours t) :=
  renamed_termAt s.charge t _

end StorageVars

/-! ## Nodes -/

/-- The flows of a node over the new names. The output flows may come in another order. -/
structure NodeFlows.Renamed (φ : Var ≃ Var) (f f' : NodeFlows Rat) : Prop where
  size : f'.size = f.size.map φ
  sizeCommodity : f'.sizeCommodity = f.sizeCommodity
  storage : f'.storage = f.storage.map (·.rename φ)
  inflows : List.Forall₂ (Stream.Renamed φ) f.inflows f'.inflows
  outflows : Matched (Stream.Renamed φ) f.outflows f'.outflows

section Nodes

variable {nodes nodes' : List (Node Rat)} {n : Node Rat} {steps : Nat}
variable (h : nodes.Perm nodes') (hn : ((variableKeys nodes).map (·.name)).Nodup)

theorem renamed_flowOf {k : VariableKey} (hk : k ∈ variableKeys nodes)
    (hs : k.steps? steps = some steps) : ((registry nodes steps).flowOf k).Renamed
      (columnMap h hn steps) ((registry nodes' steps).flowOf k) := by
  unfold Model.flowOf
  rw [← seriesOf_columnMap h hn hk hs]
  exact .ofVars _

theorem sizeIn_columnMap (hmem : n ∈ nodes) : n.sizeIn (registry nodes' steps) =
    (n.sizeIn (registry nodes steps)).map (columnMap h hn steps) := by
  unfold Node.sizeIn
  split
  · next hs =>
    rw [Option.map_some, scalarOf_columnMap h hn (mem_variableKeys_size hmem hs) rfl]
  · rfl

theorem storageIn_columnMap (hmem : n ∈ nodes) : n.storageIn (registry nodes' steps) =
    (n.storageIn (registry nodes steps)).map (·.rename (columnMap h hn steps)) := by
  unfold Node.storageIn
  split
  · next hs =>
    have hkeys := mem_variableKeys_storage hmem hs
    rw [Option.map_some]
    unfold Model.storageOf StorageVars.rename
    rw [scalarOf_columnMap h hn (hkeys _ (by simp [Node.storageKeys])) rfl,
      seriesOf_columnMap h hn (hkeys _ (by simp [Node.storageKeys])) rfl,
      seriesOf_columnMap h hn (hkeys _ (by simp [Node.storageKeys])) rfl,
      seriesOf_columnMap h hn (hkeys _ (by simp [Node.storageKeys])) rfl]
  · rfl

theorem carries_leafInflow (hmem : n ∈ nodes) (hleaf : n.inlets = []) (catalogue : Catalogue Rat)
    (commodity : String) : Carries (Flow.Renamed (columnMap h hn steps))
      (n.leafInflow catalogue commodity (registry nodes steps))
      (n.leafInflow catalogue commodity (registry nodes' steps)) := by
  have hown : ¬n.kind.isInput → ((registry nodes steps).flowOf (.inflow n.name)).Renamed
      (columnMap h hn steps) ((registry nodes' steps).flowOf (.inflow n.name)) :=
    fun hk => renamed_flowOf h hn (mem_variableKeys_inflow hmem hk hleaf) rfl
  unfold Node.leafInflow
  cases hr : n.role with
  | fixedInput flow => exact Flow.Renamed.flowIn
  | scalableInput factors =>
    dsimp only
    rw [sizeIn_columnMap h hn hmem]
    exact Carries.bind_same fun values _ => Carries.ok (.ofFactors _ values)
  | fixedOutput | scalableOutput | generic =>
    exact Carries.ok (hown (by simp [Node.kind, hr, Role.kind, NodeKind.isInput, NodeKind.part]))

theorem carries_leafOutflow (hmem : n ∈ nodes) (hleaf : outlets nodes n.name = [])
    (catalogue : Catalogue Rat) (commodity : String) :
    Carries (Flow.Renamed (columnMap h hn steps))
      (n.leafOutflow catalogue commodity (registry nodes steps))
      (n.leafOutflow catalogue commodity (registry nodes' steps)) := by
  have hown : n.kind ≠ .fixedOutput → ((registry nodes steps).flowOf (.outflow n.name)).Renamed
      (columnMap h hn steps) ((registry nodes' steps).flowOf (.outflow n.name)) :=
    fun hk => renamed_flowOf h hn (mem_variableKeys_outflow hmem hk hleaf) rfl
  unfold Node.leafOutflow
  cases hr : n.role with
  | fixedOutput inputs flow => exact Flow.Renamed.flowIn
  | fixedInput | scalableInput | scalableOutput | generic =>
    exact Carries.ok (hown (by simp [Node.kind, hr, Role.kind]))

variable {catalogue : Catalogue Rat} {c c' : NodeCommodities}

theorem carries_inStreams (hmem : n ∈ nodes) (hc : c'.inflow = c.inflow) :
    Carries (List.Forall₂ (Stream.Renamed (columnMap h hn steps)))
      (n.inStreams catalogue c (registry nodes steps))
      (n.inStreams catalogue c' (registry nodes' steps)) := by
  unfold Node.inStreams
  rw [hc]
  split
  · next hleaf =>
    exact (carries_leafInflow h hn hmem hleaf catalogue _).map fun _ _ hf =>
      .cons ⟨rfl, rfl, hf⟩ .nil
  · refine Carries.ok ?_
    rw [List.forall₂_map_left_iff, List.forall₂_map_right_iff, List.forall₂_same]
    exact fun inlet hi => ⟨rfl, rfl, renamed_flowOf h hn (mem_variableKeys_edge hmem hi) rfl⟩

theorem carries_outStreams (hmem : n ∈ nodes) :
    Carries (Matched (Stream.Renamed (columnMap h hn steps)))
      (n.outStreams catalogue (outlets nodes n.name) c (registry nodes steps))
      (n.outStreams catalogue (outlets nodes' n.name)
        (Node.commoditiesOver (outlets nodes' n.name) c) (registry nodes' steps)) := by
  have hnil := outlets_eq_nil_iff_of_perm h n.name
  unfold Node.outStreams
  by_cases hleaf : outlets nodes n.name = []
  · rw [if_pos hleaf, if_pos (hnil.1 hleaf), Node.commoditiesOver, if_pos (hnil.1 hleaf)]
    exact (carries_leafOutflow h hn hmem hleaf catalogue _).map fun _ _ hf =>
      .of_forall₂ (.cons ⟨rfl, rfl, hf⟩ .nil)
  · rw [if_neg hleaf, if_neg (mt hnil.2 hleaf)]
    refine Carries.ok (.of_perm (outlets_perm h n.name) fun o ho => ⟨rfl, rfl, ?_⟩)
    exact renamed_flowOf h hn (mem_variableKeys_outlet ho) rfl

/-- The flows of a node are the same in both networks but for the columns and the order. -/
theorem carries_flowsIn (hmem : n ∈ nodes)
    (hc : n.settle catalogue (outlets nodes n.name) = .ok c)
    (hk : outlets nodes n.name ≠ [] → ¬n.kind.isOutput) :
    Carries (NodeFlows.Renamed (columnMap h hn steps))
      (n.flowsIn catalogue (outlets nodes n.name) c (registry nodes steps))
      (n.flowsIn catalogue (outlets nodes' n.name)
        (Node.commoditiesOver (outlets nodes' n.name) c) (registry nodes' steps)) := by
  intro f hf
  obtain ⟨inflows, outflows, hin, hout, rfl⟩ := (Node.flowsIn_eq_ok_iff hc hk).1 hf
  have hsame : (Node.commoditiesOver (outlets nodes' n.name) c).inflow = c.inflow ∧
      (Node.commoditiesOver (outlets nodes' n.name) c).size = c.size := by
    unfold Node.commoditiesOver
    split <;> exact ⟨rfl, rfl⟩
  obtain ⟨inflows', hin', hins⟩ := carries_inStreams h hn hmem hsame.1 inflows hin
  obtain ⟨outflows', hout', houts⟩ := carries_outStreams h hn hmem outflows hout
  refine ⟨_, (Node.flowsIn_eq_ok_iff (Node.settle_of_perm hc (outlets_perm h n.name))
    fun hne => hk fun hnil => hne ((outlets_eq_nil_iff_of_perm h n.name).1 hnil)).2
      ⟨inflows', outflows', hin', hout', rfl⟩, ?_⟩
  exact ⟨sizeIn_columnMap h hn hmem, hsame.2, storageIn_columnMap h hn hmem, hins, houts⟩

end Nodes

end SupplyNet
