import Mathlib
import SupplyNet.Proofs.Network.Compile

/-!
The columns of a network. Under different names, each variable has its columns, and no two
variables or steps share one.
-/
set_option autoImplicit false

namespace SupplyNet

variable {K : Type} [Scalar K]

/-- The column of a series in a time step. -/
def Model.columnOf (m : Model K) (k : VariableKey) (t : Nat) : Var := (m.seriesOf k)[t]?.getD ⟨0⟩

/-- A model has the variable of a key, with a column for each step if it is a series. -/
def Model.Has (m : Model K) (steps : Nat) (k : VariableKey) : Prop :=
  match k.steps? steps with
  | none => ∃ v, m.scalar? k.name = some v
  | some size => ∃ vs, m.series? k.name = some vs ∧ vs.size = size

section Columns

variable {nodes : List (Node K)} {steps : Nat}
variable (hn : ((variableKeys nodes).map (·.name)).Nodup)

include hn

theorem key_eq_of_name_eq {k k' : VariableKey} (hk : k ∈ variableKeys nodes)
    (hk' : k' ∈ variableKeys nodes) (h : k.name = k'.name) : k = k' :=
  List.inj_on_of_nodup_map hn hk hk' h

theorem find?_registry {k : VariableKey} (hk : k ∈ variableKeys nodes) :
    ∃ start, (registry nodes steps).find? k.name = some ((k.block steps : Block K).shape start) := by
  have hfresh : Model.empty.Fresh ((variableKeys nodes).map fun k => (k.block steps : Block K)) := by
    refine ⟨?_, fun b _ => List.not_mem_nil⟩
    rw [List.map_map]
    exact hn
  obtain ⟨start, h⟩ := Model.find?_extend_of_mem hfresh (List.mem_map_of_mem hk)
  exact ⟨start, h⟩

theorem series?_registry {k : VariableKey} (hk : k ∈ variableKeys nodes)
    (hs : k.steps? steps = some steps) : ∃ start, (registry nodes steps).series? k.name =
      some ((Array.range steps).map fun t => ⟨start + t⟩) := by
  obtain ⟨start, h⟩ := find?_registry hn hk
  refine ⟨start, ?_⟩
  unfold Model.series?
  rw [h]
  simp only [VariableKey.block, hs, Block.shape]

theorem scalar?_registry {k : VariableKey} (hk : k ∈ variableKeys nodes)
    (hs : k.steps? steps = none) : ∃ v, (registry nodes steps).scalar? k.name = some v := by
  obtain ⟨start, h⟩ := find?_registry hn hk
  refine ⟨⟨start⟩, ?_⟩
  unfold Model.scalar?
  rw [h]
  simp only [VariableKey.block, hs, Block.shape]

theorem has_registry {k : VariableKey} (hk : k ∈ variableKeys nodes) :
    (registry nodes steps).Has steps k := by
  unfold Model.Has
  split
  · next hs => exact scalar?_registry hn hk hs
  · next size hs =>
    have hsize : size = steps := by
      cases k with
      | size _ => exact absurd hs (by simp [VariableKey.steps?])
      | storageSize _ => exact absurd hs (by simp [VariableKey.steps?])
      | edge _ _ | level _ | charge _ | discharge _ | outflow _ | inflow _ =>
        exact (Option.some.inj hs).symm
    subst hsize
    obtain ⟨start, h⟩ := series?_registry hn hk hs
    exact ⟨_, h, by simp⟩

theorem getElem?_seriesOf {k : VariableKey} (hk : k ∈ variableKeys nodes)
    (hs : k.steps? steps = some steps) {t : Nat} (ht : t < steps) :
    ((registry nodes steps).seriesOf k)[t]? = some ((registry nodes steps).columnOf k t) := by
  obtain ⟨start, h⟩ := series?_registry hn hk hs
  unfold Model.columnOf Model.seriesOf
  rw [h]
  simp [ht]

theorem size_seriesOf {k : VariableKey} (hk : k ∈ variableKeys nodes)
    (hs : k.steps? steps = some steps) : ((registry nodes steps).seriesOf k).size = steps := by
  obtain ⟨start, h⟩ := series?_registry hn hk hs
  unfold Model.seriesOf
  rw [h]
  simp

theorem mem_places_columnOf {k : VariableKey} (hk : k ∈ variableKeys nodes)
    (hs : k.steps? steps = some steps) {t : Nat} (ht : t < steps) :
    ((registry nodes steps).columnOf k t, (k.name, some t)) ∈ (registry nodes steps).places := by
  obtain ⟨start, h⟩ := series?_registry hn hk hs
  refine Model.mem_places_of_series? h ?_
  rw [← getElem?_seriesOf hn hk hs ht, Model.seriesOf, h]
  rfl

theorem mem_places_of_mem_seriesOf {k : VariableKey} (hk : k ∈ variableKeys nodes)
    (hs : k.steps? steps = some steps) {v : Var} (hv : v ∈ (registry nodes steps).seriesOf k) :
    ∃ t, (v, (k.name, some t)) ∈ (registry nodes steps).places := by
  obtain ⟨start, h⟩ := series?_registry hn hk hs
  obtain ⟨t, ht⟩ := Array.mem_iff_getElem?.1 hv
  rw [Model.seriesOf, h, Option.getD_some] at ht
  exact ⟨t, Model.mem_places_of_series? h ht⟩

theorem mem_places_scalarOf {k : VariableKey} (hk : k ∈ variableKeys nodes)
    (hs : k.steps? steps = none) :
    ((registry nodes steps).scalarOf k, (k.name, none)) ∈ (registry nodes steps).places := by
  obtain ⟨v, h⟩ := scalar?_registry hn hk hs
  rw [Model.scalarOf, h]
  exact Model.mem_places_of_scalar? h

theorem columnOf_eq_iff {k k' : VariableKey} (hk : k ∈ variableKeys nodes)
    (hs : k.steps? steps = some steps) (hk' : k' ∈ variableKeys nodes)
    (hs' : k'.steps? steps = some steps) {t : Nat} (ht : t < steps) :
    (registry nodes steps).columnOf k t = (registry nodes steps).columnOf k' t ↔ k = k' := by
  constructor
  · intro h
    have hplace := mem_places_columnOf hn hk hs ht
    rw [h] at hplace
    have ha := (consistent_registry steps hn).address_unique hplace (mem_places_columnOf hn hk' hs' ht)
    exact key_eq_of_name_eq hn hk hk' (Prod.mk.inj ha).1
  · rintro rfl
    rfl

theorem scalarOf_ne_columnOf {k k' : VariableKey} (hk : k ∈ variableKeys nodes)
    (hs : k.steps? steps = none) (hk' : k' ∈ variableKeys nodes)
    (hs' : k'.steps? steps = some steps) {t : Nat} (ht : t < steps) :
    (registry nodes steps).scalarOf k ≠ (registry nodes steps).columnOf k' t := by
  intro h
  have hplace := mem_places_scalarOf hn hk hs
  rw [h] at hplace
  have ha := (consistent_registry steps hn).address_unique hplace (mem_places_columnOf hn hk' hs' ht)
  exact absurd (Prod.mk.inj ha).2 (by simp)

theorem flowOf_atStep {k : VariableKey} (hk : k ∈ variableKeys nodes)
    (hs : k.steps? steps = some steps) {t : Nat} (ht : t < steps) :
    ((registry nodes steps).flowOf k).atStep t =
      .ofVar ((registry nodes steps).columnOf k t) := by
  unfold Model.flowOf Flow.ofVars Flow.atStep
  rw [Array.getElem?_map, getElem?_seriesOf hn hk hs ht]
  rfl

end Columns

/-- The model of a network has the variables of all keys. -/
theorem Compiled.has {nodes : List (Node K)} {grid : Grid} {config : Config K}
    {cs : List NodeCommodities} {groups : List (Rows K)} {net : Network K}
    (h : Compiled nodes grid config cs groups net) {k : VariableKey} (hk : k ∈ variableKeys nodes) :
    net.model.Has grid.size k := by
  rw [h.model]
  exact has_registry h.names_nodup hk

/-! ## The keys of a node -/

section Keys

variable {nodes : List (Node K)} {n : Node K}

theorem mem_variableKeys_edge (hn : n ∈ nodes) {inlet : Inlet} (hi : inlet ∈ n.inlets) :
    .edge inlet.source n.name ∈ variableKeys nodes :=
  edge_mem_variableKeys.2 ⟨n, hn, List.mem_map_of_mem hi, rfl⟩

theorem mem_variableKeys_outlet {name : String} {o : Outlet} (ho : o ∈ outlets nodes name) :
    .edge name o.target ∈ variableKeys nodes := by
  obtain ⟨m, hm, inlet, hi, rfl, rfl⟩ := mem_outlets.1 ho
  exact mem_variableKeys_edge hm hi

theorem mem_variableKeys_size (hn : n ∈ nodes) (h : n.hasSize = true) :
    .size n.name ∈ variableKeys nodes :=
  size_mem_variableKeys.2 ⟨n, hn, h, rfl⟩

theorem mem_variableKeys_storage (hn : n ∈ nodes) (h : n.storage.isSome = true) :
    ∀ k ∈ n.storageKeys, k ∈ variableKeys nodes :=
  fun _ hk => mem_variableKeys.2 ⟨n, hn, Or.inl (mem_declaredKeys.2 (Or.inr (Or.inr ⟨h, hk⟩)))⟩

/-- All variables of a storage are there. -/
theorem stored_mem_variableKeys (hn : n ∈ nodes) (h : n.storage.isSome = true) :
    .storageSize n.name ∈ variableKeys nodes ∧ .level n.name ∈ variableKeys nodes ∧
      .charge n.name ∈ variableKeys nodes ∧ .discharge n.name ∈ variableKeys nodes := by
  have hkeys := mem_variableKeys_storage hn h
  exact ⟨hkeys _ (by simp [Node.storageKeys]), hkeys _ (by simp [Node.storageKeys]),
    hkeys _ (by simp [Node.storageKeys]), hkeys _ (by simp [Node.storageKeys])⟩

theorem mem_variableKeys_inflow (hn : n ∈ nodes) (hk : ¬n.kind.isInput) (h : n.inlets = []) :
    .inflow n.name ∈ variableKeys nodes :=
  inflow_mem_variableKeys.2 ⟨n, hn, rfl, hk, h⟩

theorem mem_variableKeys_outflow (hn : n ∈ nodes) (hk : n.kind ≠ .fixedOutput)
    (h : outlets nodes n.name = []) : .outflow n.name ∈ variableKeys nodes :=
  outflow_mem_variableKeys.2 ⟨n, hn, rfl, hk, h⟩

end Keys

end SupplyNet
