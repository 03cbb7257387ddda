import Mathlib
import SupplyNet.Proofs.Network.Traced

/-!
Networks in which one node is given a storage. All variables remain, those of the storage come
along, and an assignment that is kept stays feasible if the node operates with its storage.
-/
set_option autoImplicit false

namespace SupplyNet

/-- A node is alike, and it has a storage that the other one does not have. -/
structure Node.StockedAs (n n' : Node Rat) (s : Storage Rat) : Prop where
  alike : n.Alike n'
  unstocked : n.storage = none
  stocked : n'.storage = some s

section Alike

variable {before after : List (Node Rat)} {n n' : Node Rat} {s : Storage Rat}
variable (h : n.StockedAs n' s)

include h

theorem Node.StockedAs.forall₂_alike :
    List.Forall₂ Node.Alike (before ++ n :: after) (before ++ n' :: after) := by
  have hsame : ∀ l : List (Node Rat), List.Forall₂ Node.Alike l l := fun l =>
    List.forall₂_same.2 fun m _ => .refl m
  exact List.rel_append (hsame before) (.cons h.alike (hsame after))

/-! ## Variables -/

theorem Node.StockedAs.declaredKeys :
    n'.declaredKeys = n.declaredKeys ++ n.storageKeys := by
  unfold Node.declaredKeys Node.edgeKeys Node.storageKeys
  rw [h.alike.hasSize, h.alike.name, h.alike.inlets, h.unstocked, h.stocked]
  simp

/-- The variables of the storage are added. -/
theorem Node.StockedAs.mem_variableKeys {k : VariableKey} :
    k ∈ variableKeys (before ++ n' :: after) ↔
      k ∈ variableKeys (before ++ n :: after) ∨ k ∈ n.storageKeys := by
  unfold variableKeys
  simp only [outlets_eq_of_alike h.forall₂_alike, List.flatMap_append, List.flatMap_cons,
    List.mem_append, h.declaredKeys, h.alike.samePlace.leafKeys, h.alike.name]
  tauto

theorem Node.StockedAs.variableKeys_subset :
    ∀ k ∈ variableKeys (before ++ n :: after), k ∈ variableKeys (before ++ n' :: after) :=
  fun _ hk => h.mem_variableKeys.2 (Or.inl hk)

/-- They are not there before. -/
theorem Node.StockedAs.not_mem_variableKeys (hw : Wired (before ++ n :: after)) {k : VariableKey}
    (hk : k ∈ n.storageKeys) : k ∉ variableKeys (before ++ n :: after) := by
  intro hmem
  obtain ⟨m, hm, hst, hmem⟩ := exists_stored hmem (isStored_of_mem_storageKeys hk)
  have hn : n ∈ before ++ n :: after := by simp
  have hname : m.name = n.name := by
    rw [mem_storageKeys] at hmem
    rcases mem_storageKeys.1 hk with rfl | rfl | rfl | rfl <;> simpa [eq_comm] using hmem
  obtain rfl := List.inj_on_of_nodup_map hw.names_nodup hm hn hname
  rw [h.unstocked] at hst
  exact absurd hst (by simp)

end Alike

/-! ## Extended assignments -/

/-- The value of a storage at one of its variables. -/
def StorageValues.valueAt (v : StorageValues) : VariableKey → Option Nat → Rat
  | .level _, some t => v.level t
  | .charge _, some t => v.charge t
  | .discharge _, some t => v.discharge t
  | _, _ => v.size

/-- The values of an assignment, with those of a storage that is new. -/
def Model.extendedBy (m : Model Rat) (x : Var → Rat) (n : Node Rat) (v : StorageValues)
    (k : VariableKey) (t : Option Nat) : Rat :=
  if k ∈ n.storageKeys then v.valueAt k t
  else
    match t with
    | some t => x (m.columnOf k t)
    | none => x (m.scalarOf k)

/-- The values that extend an assignment are those of the storage at its columns. -/
theorem agree_extendedBy {nodes : List (Node Rat)} {steps : Nat} {n : Node Rat}
    (hnames : ((variableKeys nodes).map (·.name)).Nodup)
    (hkeys : ∀ k ∈ n.storageKeys, k ∈ variableKeys nodes) (m : Model Rat) (x : Var → Rat)
    (v : StorageValues) : v.Agree steps ((registry nodes steps).storageValues
      ((registry nodes steps).assigned nodes (m.extendedBy x n v)) n.name) := by
  have hnew : ∀ k ∈ n.storageKeys,
      k ∈ variableKeys nodes ∧ m.extendedBy x n v k = v.valueAt k := by
    refine fun k hk => ⟨hkeys k hk, ?_⟩
    funext t
    unfold Model.extendedBy
    rw [if_pos hk]
  obtain ⟨hsize, hsize'⟩ := hnew (.storageSize n.name) (by simp [Node.storageKeys])
  obtain ⟨hlevel, hlevel'⟩ := hnew (.level n.name) (by simp [Node.storageKeys])
  obtain ⟨hcharge, hcharge'⟩ := hnew (.charge n.name) (by simp [Node.storageKeys])
  obtain ⟨hdischarge, hdischarge'⟩ := hnew (.discharge n.name) (by simp [Node.storageKeys])
  unfold Model.storageValues
  refine ⟨?_, fun t ht => ?_, fun t ht => ?_, fun t ht => ?_⟩
  · exact (assigned_scalarOf _ hnames hsize rfl).trans (congrFun hsize' none)
  · exact (assigned_columnOf _ hnames hlevel rfl ht).trans (congrFun hlevel' (some t))
  · exact (assigned_columnOf _ hnames hcharge rfl ht).trans (congrFun hcharge' (some t))
  · exact (assigned_columnOf _ hnames hdischarge rfl ht).trans (congrFun hdischarge' (some t))

section Extended

variable {before after : List (Node Rat)} {n n' : Node Rat} {s : Storage Rat} {steps : Nat}
variable (h : n.StockedAs n' s) (hw : Wired (before ++ n :: after))
variable (hnames : ((variableKeys (before ++ n :: after)).map (·.name)).Nodup)
variable (hnames' : ((variableKeys (before ++ n' :: after)).map (·.name)).Nodup)

include h hw hnames hnames'

/-- Every assignment can be extended by whatever values of the storage. -/
theorem Node.StockedAs.exists_extension (x : Var → Rat) (v : StorageValues) :
    ∃ y, (registry (before ++ n :: after) steps).Keeps
        (registry (before ++ n' :: after) steps) x y ∧
      v.Agree steps ((registry (before ++ n' :: after) steps).storageValues y n.name) := by
  have hold : ∀ k ∈ variableKeys (before ++ n :: after), k ∉ n.storageKeys :=
    fun k hk hmem => h.not_mem_variableKeys hw hmem hk
  refine ⟨(registry (before ++ n' :: after) steps).assigned (before ++ n' :: after)
    ((registry (before ++ n :: after) steps).extendedBy x n v), ?_,
    agree_extendedBy hnames' (fun k hk => h.mem_variableKeys.2 (Or.inr hk)) _ x v⟩
  rw [keeps_registry_iff hnames hnames' h.variableKeys_subset]
  refine fun k hk => ⟨fun hs => ?_, fun hs t ht => ?_⟩
  · rw [assigned_scalarOf _ hnames' (h.variableKeys_subset k hk) hs, Model.extendedBy,
      if_neg (hold k hk)]
  · rw [assigned_columnOf _ hnames' (h.variableKeys_subset k hk) hs ht, Model.extendedBy,
      if_neg (hold k hk)]

end Extended

/-! ## Both networks -/

/-- The storage costs something on top of what the node costs. -/
theorem Node.StockedAs.expenses {before after : List (Node Rat)} {n n' : Node Rat}
    {s : Storage Rat} (h : n.StockedAs n' s) {catalogue : Catalogue Rat} {currency hours : Rat}
    {steps : Nat} {o o' : Operation} (hsize : n.hasSize = true → o'.size = o.size)
    (hflow : n.flowExpenses (before ++ n :: after) catalogue currency hours steps o' =
      n.flowExpenses (before ++ n :: after) catalogue currency hours steps o) :
    n'.expenses (before ++ n' :: after) catalogue currency hours steps o' =
      n.expenses (before ++ n :: after) catalogue currency hours steps o +
        Costs.price currency (catalogue.scaleOf (n'.sizeName (before ++ n' :: after)) * 3600)
          s.costs * o'.storage.size := by
  have hs : List.Forall₂ Node.Alike (before ++ n :: after) (before ++ n' :: after) :=
    h.forall₂_alike
  have hstorage : n'.storageExpenses (before ++ n' :: after) catalogue currency o' =
      Costs.price currency (catalogue.scaleOf (n'.sizeName (before ++ n' :: after)) * 3600)
        s.costs * o'.storage.size := by
    unfold Node.storageExpenses
    rw [h.stocked]
  have hnone : n.storageExpenses (before ++ n :: after) catalogue currency o = 0 := by
    unfold Node.storageExpenses
    rw [h.unstocked]
  unfold Node.expenses
  rw [h.alike.sizeExpenses hs, Node.sizeExpenses_congr hsize, hstorage, hnone,
    h.alike.flowExpenses hs, hflow]
  ring

section Compiled

variable {before after : List (Node Rat)} {n n' : Node Rat} {s : Storage Rat} {grid : Grid}
variable {config : Config Rat} {cs cs' : List NodeCommodities} {groups groups' : List (Rows Rat)}
variable {net net' : Network Rat} {x y : Var → Rat}
variable (h : n.StockedAs n' s)
variable (hc : Compiled (before ++ n :: after) grid config cs groups net)
variable (hc' : Compiled (before ++ n' :: after) grid config cs' groups' net')
variable (hbuilt : ∀ m ∈ before ++ n :: after, m.Built)
variable (hkeeps : (registry (before ++ n :: after) grid.size).Keeps
  (registry (before ++ n' :: after) grid.size) x y)

include h hc hc' hkeeps

theorem Node.StockedAs.traces : Traces (before ++ n :: after)
    (registry (before ++ n :: after) grid.size) (registry (before ++ n' :: after) grid.size)
    grid.size id x y :=
  hkeeps.traces hc.names_nodup hc'.names_nodup h.variableKeys_subset

/-- All nodes with the same role do the same. -/
theorem Node.StockedAs.agree {m m' : Node Rat} (hm : m ∈ before ++ n :: after) (ha : m.Alike m')
    (hrole : m'.role = m.role) : m.Agree (before ++ n :: after) grid.size
      (m.operation config.catalogue (registry (before ++ n :: after) grid.size) x)
      (m'.operation config.catalogue (registry (before ++ n' :: after) grid.size) y) :=
  hkeeps.agree hc.names_nodup hc'.names_nodup h.variableKeys_subset hm ha hrole

include hbuilt

/-- A feasible assignment that is kept is feasible if the node operates with its storage. -/
theorem Node.StockedAs.feasible (hx : net.model.program.Feasible x)
    (hv : ((registry (before ++ n' :: after) grid.size).storageValues y n.name).Nonneg grid.size)
    (ho : n'.Operates (before ++ n' :: after) config.catalogue grid.hours grid.size
      (n'.operation config.catalogue (registry (before ++ n' :: after) grid.size) y)) :
    net'.model.program.Feasible y := by
  obtain ⟨hbounds, hall⟩ := hc.feasible_iff.1 hx
  rw [hc.columns_eq, nonneg_iff hc.names_nodup] at hbounds
  rw [hc'.feasible_iff, hc'.columns_eq, nonneg_iff hc'.names_nodup]
  refine ⟨fun k hk => ?_, hc'.holds_of_operates fun m hm => ?_⟩
  · rcases h.mem_variableKeys.1 hk with hk | hk
    · obtain ⟨hscalar, hcolumn⟩ :=
        (keeps_registry_iff hc.names_nodup hc'.names_nodup h.variableKeys_subset).1 hkeeps k hk
      refine ⟨fun hs => ?_, fun hs t ht => ?_⟩
      · rw [hscalar hs]
        exact (hbounds k hk).1 hs
      · rw [hcolumn hs t ht]
        exact (hbounds k hk).2 hs t ht
    · rcases mem_storageKeys.1 hk with rfl | rfl | rfl | rfl
      · exact ⟨fun _ => hv.size, fun hs => absurd hs (by simp [VariableKey.steps?])⟩
      · exact ⟨fun hs => absurd hs (by simp [VariableKey.steps?]), fun _ => hv.level⟩
      · exact ⟨fun hs => absurd hs (by simp [VariableKey.steps?]), fun _ => hv.charge⟩
      · exact ⟨fun hs => absurd hs (by simp [VariableKey.steps?]), fun _ => hv.discharge⟩
  · have hsame : m ∈ before ++ n :: after → m.Operates (before ++ n' :: after) config.catalogue
        grid.hours grid.size (m.operation config.catalogue
          (registry (before ++ n' :: after) grid.size) y) := fun hm =>
      (Node.Alike.refl m).operates h.forall₂_alike rfl
        ((hc.operates hbuilt hall hm).congr (h.agree hc hc' hkeeps hm (.refl m) rfl))
    rcases List.mem_append.1 hm with hm | hm
    · exact hsame (List.mem_append_left _ hm)
    · rcases List.mem_cons.1 hm with rfl | hm
      · exact ho
      · exact hsame (List.mem_append_right _ (List.mem_cons_of_mem _ hm))

/-- The costs change by those of the storage, if the input flows of the node cost the same. -/
theorem Node.StockedAs.objective {currency : Measure.Unit Rat}
    (hcurrency : Measure.Unit.read config.currency = .ok currency)
    (hflow : n.flowExpenses (before ++ n :: after) config.catalogue currency.scale grid.hours
        grid.size (n'.operation config.catalogue (registry (before ++ n' :: after) grid.size) y) =
      n.flowExpenses (before ++ n :: after) config.catalogue currency.scale grid.hours grid.size
        (n.operation config.catalogue (registry (before ++ n :: after) grid.size) x)) :
    net'.model.objective.eval y = net.model.objective.eval x +
      Costs.price currency.scale
          (config.catalogue.scaleOf (n'.sizeName (before ++ n' :: after)) * 3600) s.costs *
        ((registry (before ++ n' :: after) grid.size).storageValues y n.name).size := by
  have hsame : ∀ m ∈ before ++ n :: after,
      m.expenses (before ++ n' :: after) config.catalogue currency.scale grid.hours grid.size
          (m.operation config.catalogue (registry (before ++ n' :: after) grid.size) y) =
        m.expenses (before ++ n :: after) config.catalogue currency.scale grid.hours grid.size
          (m.operation config.catalogue (registry (before ++ n :: after) grid.size) x) := by
    intro m hm
    rw [(Node.Alike.refl m).expenses h.forall₂_alike rfl]
    exact Node.expenses_congr (h.agree hc hc' hkeeps hm (.refl m) rfl)
  have hsize : n.hasSize = true →
      (n'.operation config.catalogue (registry (before ++ n' :: after) grid.size) y).size =
        (n.operation config.catalogue (registry (before ++ n :: after) grid.size) x).size := by
    intro hsize
    unfold Node.operation
    rw [h.alike.name]
    exact (h.traces hc hc' hkeeps).scalar _ (mem_variableKeys_size (by simp) hsize) rfl
  rw [hc.eval_objective hcurrency fun m hm => (hbuilt m hm).not_isInput_of_flowCosts,
    hc'.eval_objective hcurrency fun m => not_isInput_of_alike h.forall₂_alike hbuilt]
  simp only [List.map_append, List.map_cons, List.sum_append, List.sum_cons]
  rw [List.map_congr_left fun m hm => hsame m (List.mem_append_left _ hm),
    List.map_congr_left fun m hm => hsame m (List.mem_append_right _ (List.mem_cons_of_mem _ hm)),
    h.expenses hsize hflow, h.alike.storage_operation]
  ring

end Compiled

end SupplyNet
