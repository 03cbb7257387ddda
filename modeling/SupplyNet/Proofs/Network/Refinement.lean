import Mathlib
import SupplyNet.Proofs.Network.RefinedSteps
import SupplyNet.Proofs.Network.Traced

/-!
Finer time grids. On a grid with finer steps, with profiles that repeat every value, a network whose
storages keep their levels can do what it does on the coarse grid, with the same sizes and the same
flows, at the same costs.
-/
set_option autoImplicit false

namespace SupplyNet

/-- The values of all variables in finer steps. -/
def Model.refinedBy (m : Model Rat) (x : Var → Rat) (k len : Nat) :
    VariableKey → Option Nat → Rat
  | .level name, some t => ((m.storageValues x name).refined k len).level t
  | .charge name, some t => ((m.storageValues x name).refined k len).charge t
  | .discharge name, some t => ((m.storageValues x name).refined k len).discharge t
  | key, some t => x (m.columnOf key (t / k))
  | key, none => x (m.scalarOf key)

/-- The assignment in finer steps. -/
def Model.refined (nodes : List (Node Rat)) (m : Model Rat) (m' : Model Rat) (k len : Nat)
    (x : Var → Rat) : Var → Rat :=
  m'.assigned nodes (m.refinedBy x k len)

section Registry

variable {nodes : List (Node Rat)} {catalogue : Catalogue Rat} {x : Var → Rat} {k len : Nat}
variable {n n' : Node Rat} (hk : 0 < k)
variable (hnames : ((variableKeys nodes).map (·.name)).Nodup)

include hnames

variable (x k len) in
/-- The sizes are the same and the flows are repeated. -/
theorem traces_refined : Traces nodes (registry nodes len) (registry nodes (k * len)) (k * len)
    (· / k) x ((registry nodes len).refined nodes (registry nodes (k * len)) k len x) := by
  refine ⟨fun key hkey hs => ?_, fun key hkey hflow t ht => ?_⟩
  · unfold Model.refined
    rw [assigned_scalarOf _ hnames hkey hs]
    cases key <;> rfl
  · unfold Model.refined
    cases key with
    | edge _ _ | outflow _ | inflow _ => exact assigned_columnOf _ hnames hkey rfl ht
    | _ => exact absurd hflow (by simp [VariableKey.isFlow])

variable (x k len) in
/-- The values of a storage are those in finer steps. -/
theorem agree_storageValues_refined (hn : n ∈ nodes) (hst : n.storage.isSome = true) :
    (((registry nodes len).storageValues x n.name).refined k len).Agree (k * len)
      ((registry nodes (k * len)).storageValues
        ((registry nodes len).refined nodes (registry nodes (k * len)) k len x) n.name) := by
  obtain ⟨hsize, hlevel, hcharge, hdischarge⟩ := stored_mem_variableKeys hn hst
  refine ⟨?_, fun t ht => ?_, fun t ht => ?_, fun t ht => ?_⟩
  · exact assigned_scalarOf _ hnames hsize rfl
  · exact assigned_columnOf _ hnames hlevel rfl ht
  · exact assigned_columnOf _ hnames hcharge rfl ht
  · exact assigned_columnOf _ hnames hdischarge rfl ht

include hk

theorem nonneg_refined (hx : ∀ v : Var, v.index < (registry nodes len).columns.size → 0 ≤ x v) :
    ∀ v : Var, v.index < (registry nodes (k * len)).columns.size →
      0 ≤ (registry nodes len).refined nodes (registry nodes (k * len)) k len x v := by
  have htraces := traces_refined x k len hnames
  have hcolumns := (nonneg_iff hnames).1 hx
  rw [nonneg_iff hnames]
  refine fun key hkey => ⟨fun hs => ?_, fun hs t ht => ?_⟩
  · rw [htraces.scalar key hkey hs]
    exact (hcolumns key hkey).1 ((key.steps?_eq_none_iff _ _).1 hs)
  · have hstored : key.isStored = true →
        0 ≤ (registry nodes len).refined nodes (registry nodes (k * len)) k len x
          ((registry nodes (k * len)).columnOf key t) := by
      intro hstored
      obtain ⟨n, hn, hst, hmem⟩ := exists_stored hkey hstored
      have hnonneg := ((nonneg_storageValues hnames hn hst hx).refined hk).congr
        (agree_storageValues_refined x k len hnames hn hst)
      rcases mem_storageKeys.1 hmem with rfl | rfl | rfl | rfl
      · exact absurd hs (by simp [VariableKey.steps?])
      · exact hnonneg.level t ht
      · exact hnonneg.charge t ht
      · exact hnonneg.discharge t ht
    cases key with
    | edge _ _ | outflow _ | inflow _ =>
      rw [htraces.flow _ hkey rfl t ht]
      exact (hcolumns _ hkey).2 rfl (t / k) (Nat.div_lt_of_lt_mul ht)
    | size _ => exact absurd hs (by simp [VariableKey.steps?])
    | _ => exact hstored rfl

end Registry

/-! ## Both networks -/

theorem Role.traces_refined (r : Role Inlets Rat) (fine : Grid) (k : Nat) :
    r.Traces fine.size (· / k) (r.mapProfile (Series.refined fine k)) := by
  intro s hs
  refine ⟨s.refined fine k, ?_, fun scale t ht => s.valueAt_refined k scale ht⟩
  rw [Role.profile?_mapProfile, Option.mem_def.1 hs]
  rfl

section Compiled

variable {nodes : List (Node Rat)} {coarse fine : Grid} {k : Nat} {config : Config Rat}
variable {cs cs' : List NodeCommodities} {groups groups' : List (Rows Rat)}
variable {net net' : Network Rat} {x y : Var → Rat} {n : Node Rat}
variable (h : coarse.Refines fine k)
variable (hc : Compiled nodes coarse config cs groups net)
variable (hc' : Compiled (nodes.map fun n => n.reprofile (Series.refined fine k)) fine config cs'
  groups' net')
variable (hbuilt : ∀ n ∈ nodes, n.Built)

include h hc

/-- Each node does in finer steps what it did. -/
theorem Grid.Refines.agree (hn : n ∈ nodes) : n.Agree nodes fine.size
    ((n.operation config.catalogue (registry nodes coarse.size) x).refined k coarse.size)
    ((n.reprofile (Series.refined fine k)).operation config.catalogue (registry nodes fine.size)
      ((registry nodes coarse.size).refined nodes (registry nodes fine.size) k coarse.size x)) := by
  have ha := (n.reprofiled (Series.refined fine k)).alike
  have hprofile := n.role.traces_refined fine k
  have hstorage := fun hst => agree_storageValues_refined x k coarse.size hc.names_nodup hn hst
  have htraces := traces_refined x k coarse.size hc.names_nodup
  rw [← h.size] at hstorage htraces
  exact ⟨fun hsize => htraces.scalar (.size n.name) (mem_variableKeys_size hn hsize) rfl, hstorage,
    fun t ht l hl => htraces.inflowOf hn ha hprofile ht hl,
    fun t ht l hl => htraces.outflowOf hn ha (fun _ => hprofile) ht hl⟩

include hc' hbuilt

theorem Grid.Refines.feasible (hloss : ∀ n ∈ nodes, ∀ s ∈ n.storage, s.storageLoss = 0)
    (hx : net.model.program.Feasible x) : net'.model.program.Feasible
      ((registry nodes coarse.size).refined nodes (registry nodes fine.size) k coarse.size x) := by
  have hr := forall₂_reprofiled (fun _ => Series.refined fine k) nodes
  obtain ⟨hbounds, hall⟩ := hc.feasible_iff.1 hx
  rw [hc.columns_eq] at hbounds
  have hnonneg := nonneg_refined h.pos hc.names_nodup hbounds
  rw [← h.size] at hnonneg
  rw [hc'.feasible_iff, hc'.columns_eq, registry_of_reprofiled hr]
  refine ⟨hnonneg, hc'.holds_of_operates fun m hm => ?_⟩
  obtain ⟨n, hn, rfl⟩ := List.mem_map.1 hm
  have ho := (hc.operates hbuilt hall hn).refined h.pos (hloss n hn)
  rw [← h.hours, ← h.size] at ho
  rw [registry_of_reprofiled hr]
  exact (n.reprofiled _).alike.operates (alike_of_reprofiled hr) rfl (ho.congr (h.agree hc hn))

theorem Grid.Refines.objective (x : Var → Rat) : net'.model.objective.eval
    ((registry nodes coarse.size).refined nodes (registry nodes fine.size) k coarse.size x) =
      net.model.objective.eval x := by
  have hr := forall₂_reprofiled (fun _ => Series.refined fine k) nodes
  have ha := alike_of_reprofiled hr
  obtain ⟨currency, hcurrency⟩ := hc.exists_currency
  rw [hc.eval_objective hcurrency fun m hm => (hbuilt m hm).not_isInput_of_flowCosts,
    hc'.eval_objective hcurrency fun m => not_isInput_of_alike ha hbuilt, List.map_map]
  refine congrArg List.sum (List.map_congr_left fun n hn => ?_)
  dsimp only [Function.comp_apply]
  rw [registry_of_reprofiled hr, (n.reprofiled _).alike.expenses ha rfl,
    Node.expenses_congr (h.agree hc hn), h.hours, h.size, Node.expenses_refined h.pos]

end Compiled

/-- A finer grid keeps what is feasible. Of a network whose storages lose nothing over time, every
feasible assignment yields a feasible one on the finer grid, with the same sizes of nodes and
storages, with each flow repeated, and at the same costs. -/
theorem Network.feasible_refined {nodes : List (Node Rat)} {coarse fine : Grid} {k : Nat}
    {config : Config Rat} {net net' : Network Rat} (hbuilt : ∀ n ∈ nodes, n.Built)
    (hloss : ∀ n ∈ nodes, ∀ s ∈ n.storage, s.storageLoss = 0) (hgrid : coarse.Refines fine k)
    (h : Network.build nodes coarse config = .ok net)
    (h' : Network.build (nodes.map fun n => n.reprofile (Series.refined fine k)) fine config =
      .ok net') :
    ∀ x, net.model.program.Feasible x → ∃ y, net'.model.program.Feasible y ∧
      Traces nodes net.model net'.model fine.size (· / k) x y ∧
      net'.model.objective.eval y = net.model.objective.eval x := by
  obtain ⟨cs, groups, hc⟩ := Network.build_eq_ok_iff.1 h
  obtain ⟨cs', groups', hc'⟩ := Network.build_eq_ok_iff.1 h'
  have hr := forall₂_reprofiled (fun _ => Series.refined fine k) nodes
  intro x hx
  have htraces := traces_refined x k coarse.size hc.names_nodup
  rw [← hgrid.size] at htraces
  refine ⟨_, hgrid.feasible hc hc' hbuilt hloss hx, ?_, hgrid.objective hc hc' hbuilt x⟩
  rw [hc.model, hc'.model, registry_of_reprofiled hr]
  exact ⟨htraces.scalar, htraces.flow⟩

/-! ## Half hours -/

theorem representable_fourth_half_hour :
    (Time.stampAt (.startOfYear 2020) (1800 * Stamp.nanosPerSecond) (4 - 1)).Representable := by
  decide

/-- Two hours of a year in halves. -/
def halfHours : Grid :=
  ⟨.startOfYear 2020, 1800 * Stamp.nanosPerSecond, 4, by decide, by decide,
    representable_fourth_half_hour⟩

theorem refines_halfHours : windGrid.Refines halfHours 2 :=
  ⟨rfl, by decide, by decide, rfl⟩

/-- The wind farm in half hours. -/
theorem refined_windNetwork :
    ∃ net net', Network.build (builtNodes windDrafts) windGrid .standard = .ok net ∧
      Network.build ((builtNodes windDrafts).map fun n => n.reprofile (Series.refined halfHours 2))
        halfHours .standard = .ok net' ∧
      net.model.program.Feasible (assignment windValues) ∧
      ∃ y, net'.model.program.Feasible y ∧
        Traces (builtNodes windDrafts) net.model net'.model halfHours.size (· / 2)
          (assignment windValues) y ∧
        net'.model.objective.eval y = net.model.objective.eval (assignment windValues) := by
  have hloss : ∀ n ∈ builtNodes windDrafts, ∀ s ∈ n.storage, s.storageLoss = 0 := by
    decide +kernel
  obtain ⟨net', h'⟩ := exists_of_isOk (x := Network.build ((builtNodes windDrafts).map fun n =>
    n.reprofile (Series.refined halfHours 2)) halfHours .standard) (by decide +kernel)
  obtain ⟨net, h, hx⟩ := exists_feasible_windNetwork
  exact ⟨net, net', h, h', hx, Network.feasible_refined (fun _ hn => built_of_mem hn) hloss
    refines_halfHours h h' _ hx⟩

end SupplyNet
