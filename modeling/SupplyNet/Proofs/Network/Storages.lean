import Mathlib
import SupplyNet.Proofs.Network.Conditions

/-!
Storages. The level of a storage follows from the one before, and the last time step precedes the
first, so what is discharged over the whole horizon is what is charged, less all losses.
-/
set_option autoImplicit false

namespace SupplyNet

/-- The values of the columns of a storage under an assignment. -/
structure StorageValues where
  size : Rat
  level : Nat → Rat
  charge : Nat → Rat
  discharge : Nat → Rat

def Model.storageValues (m : Model Rat) (x : Var → Rat) (node : String) : StorageValues :=
  ⟨x (m.scalarOf (.storageSize node)), fun t => x (m.columnOf (.level node) t),
    fun t => x (m.columnOf (.charge node) t), fun t => x (m.columnOf (.discharge node) t)⟩

/-- What the conditions of a storage say about a time step and the one before: charge and discharge
keep to the speed, the level keeps to the size, and it is what remains of the level before and of
the charge, less the discharge. -/
structure Storage.Follows (s : Storage Rat) (hours : Rat) (v : StorageValues) (previous t : Nat) :
    Prop where
  charge_le : v.charge t ≤ s.speed * hours * v.size
  discharge_le : v.discharge t ≤ s.speed * hours * v.size
  level_le : v.level t ≤ v.size
  level_eq : v.level t = (1 - s.storageLoss) * v.level previous +
    (1 - s.chargingLoss) * v.charge t - v.discharge t

/-- All time steps follow each other in a circle. -/
def Storage.Cycle (s : Storage Rat) (hours : Rat) (steps : Nat) (v : StorageValues) : Prop :=
  ∀ t < steps, s.Follows hours v ((t + steps - 1) % steps) t

/-- A storage that creates nothing: its level stays between zero and its size, it charges and
discharges no faster than its speed allows, and over the whole horizon it discharges what it
charges, less the losses. -/
structure Storage.Conserves (s : Storage Rat) (hours : Rat) (steps : Nat) (v : StorageValues) :
    Prop where
  level_mem : ∀ t < steps, 0 ≤ v.level t ∧ v.level t ≤ v.size
  charge_mem : ∀ t < steps, 0 ≤ v.charge t ∧ v.charge t ≤ v.size * s.speed * hours
  discharge_mem : ∀ t < steps, 0 ≤ v.discharge t ∧ v.discharge t ≤ v.size * s.speed * hours
  sum_discharge : ∑ t ∈ Finset.range steps, v.discharge t =
    (1 - s.chargingLoss) * ∑ t ∈ Finset.range steps, v.charge t -
      s.storageLoss * ∑ t ∈ Finset.range steps, v.level t
  sum_discharge_le :
    ∑ t ∈ Finset.range steps, v.discharge t ≤ ∑ t ∈ Finset.range steps, v.charge t
  sum_discharge_of_lossless : s.storageLoss = 0 → s.chargingLoss = 0 →
    ∑ t ∈ Finset.range steps, v.discharge t = ∑ t ∈ Finset.range steps, v.charge t

/-! ## The sum over a cycle -/

/-- The last time step precedes the first. -/
theorem previous_zero {steps : Nat} (h : 0 < steps) : (0 + steps - 1) % steps = steps - 1 := by
  rw [Nat.zero_add, Nat.mod_eq_of_lt (Nat.sub_lt h Nat.one_pos)]

theorem previous_succ {steps t : Nat} (h : t < steps) : (t + 1 + steps - 1) % steps = t := by
  rw [show t + 1 + steps - 1 = t + steps by omega, Nat.add_mod_right, Nat.mod_eq_of_lt h]

/-- Each time step precedes exactly one other. -/
theorem sum_previous (steps : Nat) (g : Nat → Rat) :
    ∑ t ∈ Finset.range steps, g ((t + steps - 1) % steps) = ∑ t ∈ Finset.range steps, g t := by
  cases steps with
  | zero => rfl
  | succ last =>
    have hnext : ∀ t ∈ Finset.range last, g ((t + 1 + (last + 1) - 1) % (last + 1)) = g t := by
      intro t ht
      rw [previous_succ (Nat.lt_succ_of_lt (Finset.mem_range.1 ht))]
    rw [Finset.sum_range_succ', previous_zero (Nat.succ_pos last),
      Finset.sum_congr rfl hnext, Nat.succ_sub_one, Finset.sum_range_succ]

namespace Storage.Cycle

variable {s : Storage Rat} {hours : Rat} {steps : Nat} {v : StorageValues}

/-- Over the whole horizon the levels cancel, but for what is lost of them. -/
theorem sum_discharge (h : s.Cycle hours steps v) :
    ∑ t ∈ Finset.range steps, v.discharge t =
      (1 - s.chargingLoss) * ∑ t ∈ Finset.range steps, v.charge t -
        s.storageLoss * ∑ t ∈ Finset.range steps, v.level t := by
  have hstep : ∀ t ∈ Finset.range steps, v.discharge t =
      (1 - s.storageLoss) * v.level ((t + steps - 1) % steps) +
        (1 - s.chargingLoss) * v.charge t - v.level t := by
    intro t ht
    have hlevel := (h t (Finset.mem_range.1 ht)).level_eq
    linarith
  rw [Finset.sum_congr rfl hstep, Finset.sum_sub_distrib, Finset.sum_add_distrib,
    ← Finset.mul_sum, ← Finset.mul_sum, sum_previous]
  ring

/-- No more is discharged than is charged. -/
theorem sum_discharge_le (h : s.Cycle hours steps v) (hlevel : ∀ t < steps, 0 ≤ v.level t)
    (hcharge : ∀ t < steps, 0 ≤ v.charge t) :
    ∑ t ∈ Finset.range steps, v.discharge t ≤ ∑ t ∈ Finset.range steps, v.charge t := by
  have hlevels : 0 ≤ ∑ t ∈ Finset.range steps, v.level t :=
    Finset.sum_nonneg fun t ht => hlevel t (Finset.mem_range.1 ht)
  have hcharges : 0 ≤ ∑ t ∈ Finset.range steps, v.charge t :=
    Finset.sum_nonneg fun t ht => hcharge t (Finset.mem_range.1 ht)
  have hstored := mul_nonneg s.storageLoss_mem.1 hlevels
  have hcharged := mul_nonneg s.chargingLoss_mem.1 hcharges
  rw [h.sum_discharge]
  linarith

theorem conserves (h : s.Cycle hours steps v) (hlevel : ∀ t < steps, 0 ≤ v.level t)
    (hcharge : ∀ t < steps, 0 ≤ v.charge t) (hdischarge : ∀ t < steps, 0 ≤ v.discharge t) :
    s.Conserves hours steps v := by
  have hspeed : s.speed * hours * v.size = v.size * s.speed * hours := by ring
  refine ⟨fun t ht => ⟨hlevel t ht, (h t ht).level_le⟩,
    fun t ht => ⟨hcharge t ht, hspeed ▸ (h t ht).charge_le⟩,
    fun t ht => ⟨hdischarge t ht, hspeed ▸ (h t ht).discharge_le⟩, h.sum_discharge,
    h.sum_discharge_le hlevel hcharge, fun hloss hcharging => ?_⟩
  rw [h.sum_discharge, hloss, hcharging]
  ring

theorem zero (s : Storage Rat) (hours : Rat) (steps : Nat) :
    s.Cycle hours steps ⟨0, fun _ => 0, fun _ => 0, fun _ => 0⟩ := by
  intro t _
  constructor <;> simp

end Storage.Cycle

/-! ## The conditions of a storage -/

section Rows

variable {nodes : List (Node Rat)} {catalogue : Catalogue Rat} {x : Var → Rat} {n : Node Rat}
variable {c : NodeCommodities} {f : NodeFlows Rat} {steps : Nat}
variable (hnames : ((variableKeys nodes).map (·.name)).Nodup)

include hnames

theorem eval_termAt {k : VariableKey} (hk : k ∈ variableKeys nodes)
    (hs : k.steps? steps = some steps) {t : Nat} (ht : t < steps) (coeff : Rat) :
    (termAt ((registry nodes steps).seriesOf k) t coeff : LinearExpr Rat).eval x =
      coeff * x ((registry nodes steps).columnOf k t) := by
  unfold termAt
  rw [getElem?_seriesOf hnames hk hs ht]
  exact LinearExpr.eval_term _ _ x

variable (hn : n ∈ nodes) {s : Storage Rat} (hstorage : n.storage = some s)
variable (h : n.Bound catalogue (outlets nodes n.name) (registry nodes steps) c f)

include hn hstorage h

/-- The conditions of a storage hold exactly if its values go through a cycle. -/
theorem storageRows_hold_iff (hours : Rat) :
    (∀ d ∈ n.storageRows steps hours f, d.Holds x) ↔
      s.Cycle hours steps ((registry nodes steps).storageValues x n.name) := by
  have hsome : n.storage.isSome = true := by rw [hstorage]; rfl
  obtain ⟨-, hlevel, hcharge, hdischarge⟩ := stored_mem_variableKeys hn hsome
  have hf : f.storage = some ((registry nodes steps).storageOf n.name) := by
    rw [h.storage, Node.storageIn, if_pos hsome]
  unfold Node.storageRows Storage.Cycle
  rw [hstorage, hf]
  simp only [List.forall_mem_flatMap, List.mem_range]
  refine forall₂_congr fun t ht => ?_
  have hprevious : (t + steps - 1) % steps < steps := Nat.mod_lt _ (by omega)
  simp only [List.forall_mem_cons, List.not_mem_nil, false_implies, implies_true, and_true,
    Constraint.Holds, LinearExpr.eval_sub, LinearExpr.eval_add, LinearExpr.eval_term,
    LinearExpr.eval_ofVar, Model.storageOf, Node.eval_varAt x hnames ht hlevel rfl,
    Node.eval_varAt x hnames ht hcharge rfl, Node.eval_varAt x hnames ht hdischarge rfl,
    eval_termAt hnames hlevel rfl hprevious, eval_termAt hnames hcharge rfl ht, sub_nonpos]
  constructor
  · rintro ⟨hcharges, hdischarges, hlevels, hbalance⟩
    refine ⟨hcharges, hdischarges, hlevels, ?_⟩
    dsimp only [Model.storageValues]
    linarith
  · intro hstep
    refine ⟨hstep.charge_le, hstep.discharge_le, hstep.level_le, ?_⟩
    have hlevels := hstep.level_eq
    dsimp only [Model.storageValues] at hlevels
    linarith

/-- Nothing is stored or moved under the zero assignment. -/
theorem exact_storageRows {hours : Rat} {d : Constraint Rat}
    (hd : d ∈ n.storageRows steps hours f) : d.Exact :=
  Constraint.exact_of_holds ((storageRows_hold_iff (x := fun _ => 0) hnames hn hstorage h hours).2
    (Storage.Cycle.zero s hours steps) d hd)

end Rows

/-! ## Storages in a network -/

section Network

variable {nodes : List (Node Rat)} {grid : Grid} {config : Config Rat} {net : Network Rat}

/-- A network keeps the columns of the storages. -/
theorem Compiled.storageValues_eq {cs : List NodeCommodities} {groups : List (Rows Rat)}
    (h : Compiled nodes grid config cs groups net) (x : Var → Rat) (name : String) :
    net.model.storageValues x name = (registry nodes grid.size).storageValues x name := by
  rw [h.model]
  rfl

/-- The values of a storage go through a cycle whenever all conditions of the network hold. -/
theorem Compiled.cycle {cs : List NodeCommodities} {groups : List (Rows Rat)}
    (h : Compiled nodes grid config cs groups net) {x : Var → Rat}
    (hall : ∀ c ∈ net.model.constraints, c.Holds x) {n : Node Rat} (hn : n ∈ nodes)
    {s : Storage Rat} (hs : n.storage = some s) :
    s.Cycle grid.hours grid.size ((registry nodes grid.size).storageValues x n.name) := by
  obtain ⟨f, hp⟩ := h.exists_flows hn
  obtain ⟨c, hbound⟩ := h.bound hp
  refine (storageRows_hold_iff h.names_nodup hn hs hbound grid.hours).1 fun d hd => ?_
  have hrow : .ok (n.storageRows grid.size grid.hours f) ∈
      n.rows config.catalogue grid.size grid.hours f :=
    List.mem_append_right _ List.mem_cons_self
  exact h.holds hall hp hrow hd (exact_storageRows h.names_nodup hn hs hbound hd)

/-- No storage of a network creates anything, whatever assignment is feasible. -/
theorem Network.storage_conserves (h : Network.build nodes grid config = .ok net) {n : Node Rat}
    (hn : n ∈ nodes) {s : Storage Rat} (hs : n.storage = some s) {x : Var → Rat}
    (hx : net.model.program.Feasible x) :
    (∀ k ∈ n.storageKeys, net.model.Has grid.size k) ∧
      s.Conserves grid.hours grid.size (net.model.storageValues x n.name) := by
  obtain ⟨cs, groups, hc⟩ := Network.build_eq_ok_iff.1 h
  have hnames := hc.names_nodup
  have hkeys := mem_variableKeys_storage hn (by rw [hs]; rfl)
  obtain ⟨hbounds, hall⟩ := hc.feasible_iff.1 hx
  rw [hc.columns_eq] at hbounds
  have hcolumn : ∀ k ∈ n.storageKeys, k.steps? grid.size = some grid.size → ∀ t < grid.size,
      0 ≤ x ((registry nodes grid.size).columnOf k t) := fun k hk hsteps t ht =>
    hbounds _ (index_columnOf_lt hnames (hkeys k hk) hsteps ht)
  have hconserves := (hc.cycle hall hn hs).conserves
    (hcolumn (.level n.name) (by simp [Node.storageKeys]) rfl)
    (hcolumn (.charge n.name) (by simp [Node.storageKeys]) rfl)
    (hcolumn (.discharge n.name) (by simp [Node.storageKeys]) rfl)
  rw [hc.model]
  exact ⟨fun k hk => has_registry hnames (hkeys k hk), hconserves⟩

end Network

theorem exists_windBattery : ∃ n ∈ builtNodes windDrafts, n.storage = some windBattery := by
  obtain ⟨n, hn, -, hs⟩ := exists_builtNode (d := windDrafts[1]) (List.getElem_mem _)
    (by decide +kernel)
  exact ⟨n, hn, hs⟩

/-- The battery of a wind farm loses a tenth of what it charges. -/
theorem storage_of_windNetwork :
    ∃ net, Network.build (builtNodes windDrafts) windGrid .standard = .ok net ∧
      ∃ n ∈ builtNodes windDrafts, n.storage = some windBattery ∧
      net.model.program.Feasible (assignment windValues) ∧
      (∀ k ∈ n.storageKeys, net.model.Has windGrid.size k) ∧
      windBattery.Conserves windGrid.hours windGrid.size
        (net.model.storageValues (assignment windValues) n.name) := by
  obtain ⟨net, h, hx⟩ := exists_feasible_windNetwork
  obtain ⟨n, hn, hs⟩ := exists_windBattery
  exact ⟨net, h, n, hn, hs, hx, Network.storage_conserves h hn hs hx⟩

end SupplyNet
