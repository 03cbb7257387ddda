import Mathlib
import SupplyNet.Proofs.Network.Stocked

/-!
Offering a storage. A network in which a node is given a storage can leave it aside, so all that was
feasible remains feasible at the same costs, and the least costs do not increase.
-/
set_option autoImplicit false

namespace SupplyNet

/-- An assignment is zero at all columns of some variables and that of another model elsewhere. -/
def Model.ExtendsByZero (m m' : Model Rat) (keys : List VariableKey) (x y : Var → Rat) : Prop :=
  ∀ w a, (w, a) ∈ m'.places →
    if a.1 ∈ keys.map (·.name) then y w = 0 else ∃ v, (v, a) ∈ m.places ∧ y w = x v

theorem Node.stockedAs {n : Node Rat} (h : n.storage = none) (s : Storage Rat) :
    n.StockedAs { n with storage := some s } s :=
  ⟨⟨rfl, rfl, rfl, rfl, rfl, rfl, rfl, rfl, rfl, rfl, rfl⟩, h, rfl⟩

/-- A storage that holds nothing. -/
def StorageValues.zero : StorageValues := ⟨0, fun _ => 0, fun _ => 0, fun _ => 0⟩

theorem StorageValues.nonneg_zero (steps : Nat) : StorageValues.zero.Nonneg steps :=
  ⟨le_rfl, fun _ _ => le_rfl, fun _ _ => le_rfl, fun _ _ => le_rfl⟩

section Extended

variable {before after : List (Node Rat)} {n n' : Node Rat} {s : Storage Rat} {steps : Nat}
variable {x y : Var → Rat}
variable (h : n.StockedAs n' s) (hw : Wired (before ++ n :: after))
variable (hnames : ((variableKeys (before ++ n :: after)).map (·.name)).Nodup)
variable (hnames' : ((variableKeys (before ++ n' :: after)).map (·.name)).Nodup)

include h hw hnames'

/-- No name of a variable is that of one of the storage. -/
theorem Node.StockedAs.name_not_mem {k : VariableKey}
    (hk : k ∈ variableKeys (before ++ n :: after)) : k.name ∉ n.storageKeys.map (·.name) := by
  intro hname
  obtain ⟨k', hk', he⟩ := List.mem_map.1 hname
  rw [key_eq_of_name_eq hnames' (h.mem_variableKeys.2 (Or.inr hk'))
    (h.variableKeys_subset k hk) he] at hk'
  exact h.not_mem_variableKeys hw hk' hk

include hnames

/-- What extends an assignment by zero keeps it. -/
theorem Node.StockedAs.keeps_of_extendsByZero
    (hz : (registry (before ++ n :: after) steps).ExtendsByZero
      (registry (before ++ n' :: after) steps) n.storageKeys x y) :
    (registry (before ++ n :: after) steps).Keeps (registry (before ++ n' :: after) steps) x y := by
  rw [keeps_registry_iff hnames hnames' h.variableKeys_subset]
  refine fun k hk => ⟨fun hs => ?_, fun hs t ht => ?_⟩
  · have hplace := hz _ _ (mem_places_scalarOf hnames' (h.variableKeys_subset k hk) hs)
    rw [if_neg (h.name_not_mem hw hnames' hk)] at hplace
    obtain ⟨v, hv, he⟩ := hplace
    rw [he, eq_of_mem_places hnames hv (mem_places_scalarOf hnames hk hs)]
  · have hplace := hz _ _ (mem_places_columnOf hnames' (h.variableKeys_subset k hk) hs ht)
    rw [if_neg (h.name_not_mem hw hnames' hk)] at hplace
    obtain ⟨v, hv, he⟩ := hplace
    rw [he, eq_of_mem_places hnames hv (mem_places_columnOf hnames hk hs ht)]

omit hw hnames in
/-- The storage holds nothing if it is extended by zero. -/
theorem Node.StockedAs.zero_of_extendsByZero
    (hz : (registry (before ++ n :: after) steps).ExtendsByZero
      (registry (before ++ n' :: after) steps) n.storageKeys x y) :
    StorageValues.zero.Agree steps
      ((registry (before ++ n' :: after) steps).storageValues y n.name) := by
  have hkeys : ∀ k ∈ n.storageKeys, k ∈ variableKeys (before ++ n' :: after) := fun k hk =>
    h.mem_variableKeys.2 (Or.inr hk)
  have hcolumn : ∀ k ∈ n.storageKeys, k.steps? steps = some steps → ∀ t < steps,
      y ((registry (before ++ n' :: after) steps).columnOf k t) = 0 := by
    intro k hk hs t ht
    have hplace := hz _ _ (mem_places_columnOf hnames' (hkeys k hk) hs ht)
    rwa [if_pos (List.mem_map_of_mem hk)] at hplace
  have hsize : .storageSize n.name ∈ n.storageKeys := by simp [Node.storageKeys]
  refine ⟨?_, hcolumn _ (by simp [Node.storageKeys]) rfl,
    hcolumn _ (by simp [Node.storageKeys]) rfl, hcolumn _ (by simp [Node.storageKeys]) rfl⟩
  have hplace := hz _ _ (mem_places_scalarOf hnames' (hkeys _ hsize) rfl)
  rwa [if_pos (List.mem_map_of_mem hsize)] at hplace

omit hw in
/-- To keep an assignment and to leave the storage empty is to extend it by zero. -/
theorem Node.StockedAs.extendsByZero (hkeeps : (registry (before ++ n :: after) steps).Keeps
      (registry (before ++ n' :: after) steps) x y)
    (hzero : StorageValues.zero.Agree steps
      ((registry (before ++ n' :: after) steps).storageValues y n.name)) :
    (registry (before ++ n :: after) steps).ExtendsByZero
      (registry (before ++ n' :: after) steps) n.storageKeys x y := by
  have hcolumns := (keeps_registry_iff hnames hnames' h.variableKeys_subset).1 hkeeps
  intro w a hw'
  obtain ⟨k, hk, hplace⟩ := (mem_places_registry hnames').1 hw'
  have hname : a.1 = k.name := by
    rcases hplace with ⟨-, -, rfl⟩ | ⟨-, t, -, -, rfl⟩ <;> rfl
  rw [hname]
  split
  · next ha =>
    obtain ⟨k', hk', he⟩ := List.mem_map.1 ha
    obtain rfl := key_eq_of_name_eq hnames' (h.mem_variableKeys.2 (Or.inr hk')) hk he
    rcases hplace with ⟨hs, rfl, -⟩ | ⟨hs, t, ht, rfl, -⟩
    · rcases mem_storageKeys.1 hk' with rfl | rfl | rfl | rfl
      · exact hzero.size
      all_goals exact absurd hs (by simp [VariableKey.steps?])
    · rcases mem_storageKeys.1 hk' with rfl | rfl | rfl | rfl
      · exact absurd hs (by simp [VariableKey.steps?])
      · exact hzero.level t ht
      · exact hzero.charge t ht
      · exact hzero.discharge t ht
  · next ha =>
    have hk : k ∈ variableKeys (before ++ n :: after) :=
      (h.mem_variableKeys.1 hk).resolve_right fun hmem => ha (List.mem_map_of_mem hmem)
    rcases hplace with ⟨hs, rfl, rfl⟩ | ⟨hs, t, ht, rfl, rfl⟩
    · exact ⟨_, mem_places_scalarOf hnames hk hs, (hcolumns k hk).1 hs⟩
    · exact ⟨_, mem_places_columnOf hnames hk hs ht, (hcolumns k hk).2 hs t ht⟩

end Extended

section Compiled

variable {before after : List (Node Rat)} {n n' : Node Rat} {s : Storage Rat} {grid : Grid}
variable {config : Config Rat} {cs cs' : List NodeCommodities} {groups groups' : List (Rows Rat)}
variable {net net' : Network Rat} {x y : Var → Rat}
variable (h : n.StockedAs n' s) (hrole : n'.role = n.role)
variable (hc : Compiled (before ++ n :: after) grid config cs groups net)
variable (hc' : Compiled (before ++ n' :: after) grid config cs' groups' net')
variable (hbuilt : ∀ m ∈ before ++ n :: after, m.Built)
variable (hkeeps : (registry (before ++ n :: after) grid.size).Keeps
  (registry (before ++ n' :: after) grid.size) x y)
variable (hzero : StorageValues.zero.Agree grid.size
  ((registry (before ++ n' :: after) grid.size).storageValues y n.name))

include h hrole hc hc' hbuilt hkeeps hzero

/-- A node does the same with a storage that is left empty. -/
theorem Node.StockedAs.operates_of_zero (hall : ∀ c ∈ net.model.constraints, c.Holds x) :
    n'.Operates (before ++ n' :: after) config.catalogue grid.hours grid.size
      (n'.operation config.catalogue (registry (before ++ n' :: after) grid.size) y) := by
  have hn : n ∈ before ++ n :: after := by simp
  have ho := (hc.operates hbuilt hall hn).congr (h.agree hc hc' hkeeps hn h.alike hrole)
  rw [← h.alike.storage_operation config.catalogue] at hzero
  refine h.alike.operates_of h.forall₂_alike (fun output hout t ht => ?_) (fun s' hs' => ?_)
    ho.inputs ho.outputs fun hsize hk t ht => ?_
  · have hbalanced := ho.balanced output hout t ht
    unfold Node.netCharge at hbalanced ⊢
    rw [h.unstocked] at hbalanced
    rw [h.stocked, hzero.charge t ht, hzero.discharge t ht, ← hbalanced]
    simp [StorageValues.zero]
  · exact (Storage.Cycle.zero s' _ _).congr hzero
  · have hlimited := ho.limited hsize hk t ht
    unfold Node.chargeFlow at hlimited ⊢
    rw [h.unstocked] at hlimited
    rw [h.stocked, hzero.charge t ht]
    simpa [StorageValues.zero] using hlimited

theorem Node.StockedAs.feasible_of_zero (hx : net.model.program.Feasible x) :
    net'.model.program.Feasible y :=
  h.feasible hc hc' hbuilt hkeeps hx ((StorageValues.nonneg_zero _).congr hzero)
    (h.operates_of_zero hrole hc hc' hbuilt hkeeps hzero (hc.feasible_iff.1 hx).2)

theorem Node.StockedAs.objective_of_zero :
    net'.model.objective.eval y = net.model.objective.eval x := by
  obtain ⟨currency, hcurrency⟩ := hc.exists_currency
  have hflow := Node.flowExpenses_congr config.catalogue currency.scale grid.hours
    (h.agree hc hc' hkeeps (by simp) h.alike hrole).inflow
  rw [h.objective hc hc' hbuilt hkeeps hcurrency hflow, hzero.size, StorageValues.zero, mul_zero,
    add_zero]

omit hkeeps hzero in
/-- Every feasible assignment can be extended by zero, and what extends it is feasible. -/
theorem Node.StockedAs.relaxes (hx : net.model.program.Feasible x) :
    (∃ y, net.model.ExtendsByZero net'.model n.storageKeys x y) ∧
      ∀ y, net.model.ExtendsByZero net'.model n.storageKeys x y →
        net'.model.program.Feasible y ∧
          net'.model.objective.eval y = net.model.objective.eval x := by
  have hsame : ∀ y : Var → Rat, net.model.ExtendsByZero net'.model n.storageKeys x y ↔
      (registry (before ++ n :: after) grid.size).ExtendsByZero
        (registry (before ++ n' :: after) grid.size) n.storageKeys x y := by
    rw [hc.model, hc'.model]
    exact fun y => Iff.rfl
  obtain ⟨y, hkeeps, hzero⟩ :=
    h.exists_extension hc.wired hc.names_nodup hc'.names_nodup x .zero
  refine ⟨⟨y, (hsame y).2 (h.extendsByZero hc.names_nodup hc'.names_nodup hkeeps hzero)⟩,
    fun y hy => ?_⟩
  have hkeeps :=
    h.keeps_of_extendsByZero hc.wired hc.names_nodup hc'.names_nodup ((hsame y).1 hy)
  have hzero := h.zero_of_extendsByZero hc'.names_nodup ((hsame y).1 hy)
  exact ⟨h.feasible_of_zero hrole hc hc' hbuilt hkeeps hzero hx,
    h.objective_of_zero hrole hc hc' hbuilt hkeeps hzero⟩

end Compiled

/-- Offering a storage only relaxes a network: whatever was feasible, extended by zero at the
columns of the storage, is feasible at the same costs, so the least costs do not increase. -/
theorem Network.storage_relaxes {before after : List (Node Rat)} {n : Node Rat} {grid : Grid}
    {config : Config Rat} {net net' : Network Rat} (hbuilt : ∀ m ∈ before ++ n :: after, m.Built)
    (hn : n.storage = none) (s : Storage Rat)
    (h : Network.build (before ++ n :: after) grid config = .ok net)
    (h' : Network.build (before ++ { n with storage := some s } :: after) grid config = .ok net') :
    (∀ x, net.model.program.Feasible x →
      (∃ y, net.model.ExtendsByZero net'.model n.storageKeys x y) ∧
      ∀ y, net.model.ExtendsByZero net'.model n.storageKeys x y →
        net'.model.program.Feasible y ∧
          net'.model.objective.eval y = net.model.objective.eval x) ∧
    ∀ x z, net.model.program.Minimal x → net'.model.program.Minimal z →
      net'.model.objective.eval z ≤ net.model.objective.eval x := by
  obtain ⟨cs, groups, hc⟩ := Network.build_eq_ok_iff.1 h
  obtain ⟨cs', groups', hc'⟩ := Network.build_eq_ok_iff.1 h'
  have hextends := fun x => (Node.stockedAs hn s).relaxes rfl hc hc' hbuilt (x := x)
  refine ⟨hextends, fun x z hx hz => ?_⟩
  obtain ⟨⟨y, hy⟩, hall⟩ := hextends x hx.1
  obtain ⟨hfeasible, hobjective⟩ := hall y hy
  exact hobjective ▸ hz.2 y hfeasible

theorem windNodes_ne_nil : builtNodes windDrafts ≠ [] := by decide +kernel

/-- The wind farm with a second battery where the wind arrives. -/
theorem relaxed_windNetwork :
    ∃ wind nodes net net', builtNodes windDrafts = [] ++ wind :: nodes ∧
      (∀ m ∈ [] ++ wind :: nodes, m.Built) ∧ wind.storage = none ∧
      Network.build ([] ++ wind :: nodes) windGrid .standard = .ok net ∧
      Network.build ([] ++ { wind with storage := some windBattery } :: nodes) windGrid .standard =
        .ok net' ∧
      net.model.program.Feasible (assignment windValues) ∧
      (∃ y, net.model.ExtendsByZero net'.model wind.storageKeys (assignment windValues) y) ∧
      ∀ y, net.model.ExtendsByZero net'.model wind.storageKeys (assignment windValues) y →
        net'.model.program.Feasible y ∧ net'.model.objective.eval y =
          net.model.objective.eval (assignment windValues) := by
  have hnodes : builtNodes windDrafts = [] ++ (builtNodes windDrafts).head windNodes_ne_nil ::
      (builtNodes windDrafts).tail := (List.cons_head_tail windNodes_ne_nil).symm
  have hstorage : ((builtNodes windDrafts).head windNodes_ne_nil).storage.isNone = true := by
    decide +kernel
  obtain ⟨net', h'⟩ := exists_of_isOk (x := Network.build ([] ++
    { (builtNodes windDrafts).head windNodes_ne_nil with storage := some windBattery } ::
      (builtNodes windDrafts).tail) windGrid .standard) (by decide +kernel)
  obtain ⟨net, h, hx⟩ := exists_feasible_windNetwork
  have hbuilt : ∀ m ∈ builtNodes windDrafts, m.Built := fun _ hm => built_of_mem hm
  rw [hnodes] at h hbuilt
  have hnone := Option.isNone_iff_eq_none.1 hstorage
  obtain ⟨hextends, -⟩ := Network.storage_relaxes hbuilt hnone windBattery h h'
  exact ⟨_, _, net, net', hnodes, hbuilt, hnone, h, h', hx, hextends _ hx⟩

end SupplyNet
