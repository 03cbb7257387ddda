import Mathlib
import SupplyNet.Proofs.Network.Supplied

/-!
Blending. The flows that are given stand alone on their side of the conditions, and everything else
in them is a multiple of some column. So, of two networks that differ in these flows only, so much
of what is feasible for the one and so much of what is feasible for the other add up to what is
feasible for the network with as much of the flows of each, and the costs add up as well.
-/
set_option autoImplicit false

namespace SupplyNet

/-! ## Storages -/

/-- So much of one storage and so much of another. -/
def StorageValues.blend (a b : Rat) (v w : StorageValues) : StorageValues where
  size := a * v.size + b * w.size
  level t := a * v.level t + b * w.level t
  charge t := a * v.charge t + b * w.charge t
  discharge t := a * v.discharge t + b * w.discharge t

/-- What is in proportion to the size. -/
theorem StorageValues.mul_size_blend (k a b : Rat) (v w : StorageValues) :
    k * (v.blend a b w).size = a * (k * v.size) + b * (k * w.size) := by
  unfold blend
  ring

theorem blend_le_blend {a b x y x' y' : Rat} (ha : 0 ≤ a) (hb : 0 ≤ b) (h : x ≤ y)
    (h' : x' ≤ y') : a * x + b * x' ≤ a * y + b * y' :=
  add_le_add (mul_le_mul_of_nonneg_left h ha) (mul_le_mul_of_nonneg_left h' hb)

theorem Storage.Cycle.blend {s : Storage Rat} {hours : Rat} {steps : Nat} {v w : StorageValues}
    {a b : Rat} (ha : 0 ≤ a) (hb : 0 ≤ b) (h : s.Cycle hours steps v)
    (h' : s.Cycle hours steps w) : s.Cycle hours steps (v.blend a b w) := by
  intro t ht
  have hv := h t ht
  have hw := h' t ht
  constructor
  · rw [StorageValues.mul_size_blend]
    exact blend_le_blend ha hb hv.charge_le hw.charge_le
  · rw [StorageValues.mul_size_blend]
    exact blend_le_blend ha hb hv.discharge_le hw.discharge_le
  · exact blend_le_blend ha hb hv.level_le hw.level_le
  · unfold StorageValues.blend
    dsimp only
    rw [hv.level_eq, hw.level_eq]
    ring

/-! ## Given flows -/

theorem Series.valueAt_supplied_blend (s : Series Rat) (a b : Rat) (p q : Nat → Rat) (scale : Rat)
    (t : Nat) : (s.supplied fun t => a * p t + b * q t).valueAt scale t =
      a * (s.supplied p).valueAt scale t + b * (s.supplied q).valueAt scale t := by
  rw [valueAt_supplied, valueAt_supplied, valueAt_supplied]
  split
  · ring
  · ring

/-! ## Operations -/

/-- So much of one operation and so much of another. -/
def Operation.blend (a b : Rat) (o o' : Operation) : Operation where
  size := a * o.size + b * o'.size
  storage := o.storage.blend a b o'.storage
  inflow t l := a * o.inflow t l + b * o'.inflow t l
  outflow t l := a * o.outflow t l + b * o'.outflow t l

namespace Node

variable {nodes : List (Node Rat)} {catalogue : Catalogue Rat} {n : Node Rat} {steps : Nat}
variable {hours : Rat} {o o' : Operation} {a b : Rat}

theorem netCharge_blend (t : Nat) : n.netCharge hours (o.blend a b o') t =
    a * n.netCharge hours o t + b * n.netCharge hours o' t := by
  unfold netCharge Operation.blend StorageValues.blend
  split
  · ring
  · ring

theorem chargeFlow_blend (t : Nat) : n.chargeFlow hours (o.blend a b o') t =
    a * n.chargeFlow hours o t + b * n.chargeFlow hours o' t := by
  unfold chargeFlow Operation.blend StorageValues.blend
  split
  · ring
  · ring

theorem Passes.blend (ha : 0 ≤ a) (hb : 0 ≤ b) (h : n.Passes nodes catalogue hours steps o)
    (h' : n.Passes nodes catalogue hours steps o') :
    n.Passes nodes catalogue hours steps (o.blend a b o') := by
  refine ⟨fun output hout t ht => ?_,
    fun r hr t ht => (h.inputs r hr t ht).blend a b (h'.inputs r hr t ht),
    fun r hr t ht => (h.outputs r hr t ht).blend a b (h'.outputs r hr t ht),
    fun hsize hk t ht => ?_⟩
  · have hbalanced := h.balanced output hout t ht
    have hbalanced' := h'.balanced output hout t ht
    rw [netCharge_blend]
    unfold Operation.blend
    dsimp only
    rw [Label.total_blend, Label.total_blend]
    linear_combination a * hbalanced + b * hbalanced'
  · have hlimited := blend_le_blend ha hb (h.limited hsize hk t ht) (h'.limited hsize hk t ht)
    rw [chargeFlow_blend]
    unfold Operation.blend
    dsimp only
    rw [Label.total_blend]
    linarith

/-- A node that operates in two ways operates in every blend of them as well. -/
theorem Operates.blend (ha : 0 ≤ a) (hb : 0 ≤ b)
    (h : n.Operates nodes catalogue hours steps o)
    (h' : n.Operates nodes catalogue hours steps o') :
    n.Operates nodes catalogue hours steps (o.blend a b o') := by
  obtain ⟨hpasses, hcycle⟩ := operates_iff_passes.1 h
  obtain ⟨hpasses', hcycle'⟩ := operates_iff_passes.1 h'
  exact operates_iff_passes.2 ⟨hpasses.blend ha hb hpasses',
    fun s hs => (hcycle s hs).blend ha hb (hcycle' s hs)⟩

/-! ## Expenses -/

theorem flowExpenses_blend (currency : Rat) :
    n.flowExpenses nodes catalogue currency hours steps (o.blend a b o') =
      a * n.flowExpenses nodes catalogue currency hours steps o +
        b * n.flowExpenses nodes catalogue currency hours steps o' := by
  unfold flowExpenses
  cases n.inputFlowCosts with
  | none => simp
  | some costs =>
    unfold Operation.blend
    dsimp only
    rw [← List.sum_map_mul_left, ← List.sum_map_mul_left, ← List.sum_map_add]
    refine congrArg List.sum (List.map_congr_left fun l _ => ?_)
    rw [Finset.sum_add_distrib, ← Finset.mul_sum, ← Finset.mul_sum]
    ring

theorem expenses_blend (currency : Rat) :
    n.expenses nodes catalogue currency hours steps (o.blend a b o') =
      a * n.expenses nodes catalogue currency hours steps o +
        b * n.expenses nodes catalogue currency hours steps o' := by
  have hsize : n.sizeExpenses nodes catalogue currency (o.blend a b o') =
      a * n.sizeExpenses nodes catalogue currency o +
        b * n.sizeExpenses nodes catalogue currency o' := by
    unfold sizeExpenses Operation.blend
    cases n.costs with
    | none => simp
    | some costs =>
      dsimp only
      split
      · ring
      · ring
  have hstorage : n.storageExpenses nodes catalogue currency (o.blend a b o') =
      a * n.storageExpenses nodes catalogue currency o +
        b * n.storageExpenses nodes catalogue currency o' := by
    unfold storageExpenses Operation.blend StorageValues.blend
    cases n.storage with
    | none => simp
    | some s => ring
  unfold expenses
  rw [hsize, hstorage, flowExpenses_blend]
  ring

/-! ## Operations under given flows -/

variable (catalogue) (m : Model Rat) (p q : String → Nat → Rat) (v w : Var → Rat) (n) (a b)

theorem leafInflowAt_supply_blend (commodity : String) (t : Nat) :
    (n.supply fun name t => a * p name t + b * q name t).leafInflowAt catalogue m
        (fun i => a * v i + b * w i) commodity t =
      a * (n.supply p).leafInflowAt catalogue m v commodity t +
        b * (n.supply q).leafInflowAt catalogue m w commodity t := by
  by_cases h : n.IsGiven
  · rw [supply_of_isGiven _ h, supply_of_isGiven _ h, supply_of_isGiven _ h]
    unfold reprofile leafInflowAt
    dsimp only
    cases hr : n.role with
    | fixedInput flow => exact flow.valueAt_supplied_blend a b (p n.name) (q n.name) _ t
    | scalableInput factors => exact absurd h (by simp [IsGiven, kind, hr, Role.kind])
    | fixedOutput _ _ | scalableOutput _ _ | generic _ => rfl
  · rw [supply_of_not_isGiven _ h, supply_of_not_isGiven _ h, supply_of_not_isGiven _ h]
    unfold leafInflowAt
    cases hr : n.role with
    | fixedInput flow => exact absurd (Or.inl (by unfold kind; rw [hr]; rfl)) h
    | scalableInput factors =>
      dsimp only
      ring
    | fixedOutput _ _ | scalableOutput _ _ | generic _ => rfl

theorem leafOutflowAt_supply_blend (commodity : String) (t : Nat) :
    (n.supply fun name t => a * p name t + b * q name t).leafOutflowAt catalogue m
        (fun i => a * v i + b * w i) commodity t =
      a * (n.supply p).leafOutflowAt catalogue m v commodity t +
        b * (n.supply q).leafOutflowAt catalogue m w commodity t := by
  by_cases h : n.IsGiven
  · rw [supply_of_isGiven _ h, supply_of_isGiven _ h, supply_of_isGiven _ h]
    unfold reprofile leafOutflowAt
    dsimp only
    cases n.role with
    | fixedOutput inputs flow => exact flow.valueAt_supplied_blend a b (p n.name) (q n.name) _ t
    | _ => rfl
  · rw [supply_of_not_isGiven _ h, supply_of_not_isGiven _ h, supply_of_not_isGiven _ h]
    unfold leafOutflowAt
    cases hr : n.role with
    | fixedOutput inputs flow => exact absurd (Or.inr (by unfold kind; rw [hr]; rfl)) h
    | _ => rfl

/-- What a node does of blended flows under a blended assignment is the blend of what it does. -/
theorem operation_supply_blend :
    (n.supply fun name t => a * p name t + b * q name t).operation catalogue m
        (fun i => a * v i + b * w i) =
      ((n.supply p).operation catalogue m v).blend a b ((n.supply q).operation catalogue m w) := by
  have hin : (n.supply fun name t => a * p name t + b * q name t).inflowOf catalogue m
      (fun i => a * v i + b * w i) = fun t l => a * (n.supply p).inflowOf catalogue m v t l +
        b * (n.supply q).inflowOf catalogue m w t l := by
    funext t l
    unfold inflowOf
    cases l.neighbour with
    | some source => rfl
    | none => exact n.leafInflowAt_supply_blend catalogue a b m p q v w l.commodity t
  have hout : (n.supply fun name t => a * p name t + b * q name t).outflowOf catalogue m
      (fun i => a * v i + b * w i) = fun t l => a * (n.supply p).outflowOf catalogue m v t l +
        b * (n.supply q).outflowOf catalogue m w t l := by
    funext t l
    unfold outflowOf
    cases l.neighbour with
    | some target => rfl
    | none => exact n.leafOutflowAt_supply_blend catalogue a b m p q v w l.commodity t
  unfold operation
  rw [hin, hout]
  rfl

end Node

/-! ## Networks -/

section Compiled

variable {nodes : List (Node Rat)} {grid : Grid} {config : Config Rat}
variable {cs cs' cs'' : List NodeCommodities} {groups groups' groups'' : List (Rows Rat)}
variable {net net' net'' : Network Rat} {p q : String → Nat → Rat} {a b : Rat} {v w : Var → Rat}
variable (h : Compiled (nodes.map (·.supply p)) grid config cs groups net)
variable (h' : Compiled (nodes.map (·.supply q)) grid config cs' groups' net')
variable (h'' : Compiled (nodes.map (·.supply fun name t => a * p name t + b * q name t)) grid
  config cs'' groups'' net'')
variable (hbuilt : ∀ n ∈ nodes, (n.supply p).Built)

include h h' h'' hbuilt

theorem Compiled.feasible_blend (ha : 0 ≤ a) (hb : 0 ≤ b) (hv : net.model.program.Feasible v)
    (hw : net'.model.program.Feasible w) :
    net''.model.program.Feasible fun i => a * v i + b * w i := by
  have hall := fun r n hn => (hbuilt n hn).supply_of_supply p r
  rw [h.feasible_supply_iff hbuilt] at hv
  rw [h'.feasible_supply_iff (hall q)] at hw
  rw [h''.feasible_supply_iff (hall _)]
  refine ⟨fun i hi => ?_, fun n hn => ?_⟩
  · exact add_nonneg (mul_nonneg ha (hv.1 i hi)) (mul_nonneg hb (hw.1 i hi))
  · rw [n.operation_supply_blend]
    exact (hv.2 n hn).blend ha hb (hw.2 n hn)

theorem Compiled.objective_blend (v w : Var → Rat) :
    net''.model.objective.eval (fun i => a * v i + b * w i) =
      a * net.model.objective.eval v + b * net'.model.objective.eval w := by
  have hall := fun r n hn => (hbuilt n hn).supply_of_supply p r
  obtain ⟨currency, hcurrency⟩ := h.exists_currency
  rw [h.objective_supply hbuilt hcurrency, h'.objective_supply (hall q) hcurrency,
    h''.objective_supply (hall _) hcurrency, ← List.sum_map_mul_left, ← List.sum_map_mul_left,
    ← List.sum_map_add]
  refine congrArg List.sum (List.map_congr_left fun n _ => ?_)
  rw [n.operation_supply_blend, Node.expenses_blend]

end Compiled

/-- A network is linear in the flows that are given. If it is built with some flows, it is built
with any others and with every blend of both, with the same columns. The blend of an assignment that
is feasible for the former with one that is feasible for the latter is feasible for the blend of the
flows, at the blend of their costs. -/
theorem Network.feasible_blended {nodes : List (Node Rat)} {grid : Grid} {config : Config Rat}
    {net : Network Rat} {p : String → Nat → Rat} (hbuilt : ∀ n ∈ nodes, (n.supply p).Built)
    (h : build (nodes.map (·.supply p)) grid config = .ok net) (q : String → Nat → Rat) {a b : Rat}
    (ha : 0 ≤ a) (hb : 0 ≤ b) :
    (∀ r, ∀ n ∈ nodes, (n.supply r).Built) ∧ ∃ net' net'',
      build (nodes.map (·.supply q)) grid config = .ok net' ∧
      build (nodes.map (·.supply fun name t => a * p name t + b * q name t)) grid config =
        .ok net'' ∧
      net'.model.columns = net.model.columns ∧ net''.model.columns = net.model.columns ∧
      ∀ v w, net.model.program.Feasible v → net'.model.program.Feasible w →
        net''.model.program.Feasible (fun i => a * v i + b * w i) ∧
        net''.model.objective.eval (fun i => a * v i + b * w i) =
          a * net.model.objective.eval v + b * net'.model.objective.eval w := by
  obtain ⟨net', h'⟩ := exists_build_supply hbuilt h q
  obtain ⟨net'', h''⟩ := exists_build_supply hbuilt h fun name t => a * p name t + b * q name t
  obtain ⟨cs, groups, hc⟩ := build_eq_ok_iff.1 h
  obtain ⟨cs', groups', hc'⟩ := build_eq_ok_iff.1 h'
  obtain ⟨cs'', groups'', hc''⟩ := build_eq_ok_iff.1 h''
  refine ⟨fun r n hn => (hbuilt n hn).supply_of_supply p r, net', net'', h', h'',
    ?_, ?_, fun v w hv hw => ⟨?_, ?_⟩⟩
  · rw [hc'.columns_of_supply, hc.columns_of_supply]
  · rw [hc''.columns_of_supply, hc.columns_of_supply]
  · exact hc.feasible_blend hc' hc'' hbuilt ha hb hv hw
  · exact hc.objective_blend hc' hc'' hbuilt v w

/-! ## Steady and late demand -/

/-- The town needs the same in both hours. -/
def steadyDemand (_ : String) (_ : Nat) : Rat := 5

/-- The town needs nothing in the first hour and more in the second. -/
def lateDemand (_ : String) (t : Nat) : Rat := 10 * t

/-- The battery takes in all wind of the first hour. -/
def lateValues : Array Rat := #[12, 6, 6, 36, 27 / 5, 0, 6, 14, 0, 18, 0, 10]

theorem nonneg_lateValues : ∀ q ∈ lateValues, 0 ≤ q := by decide +kernel

/-- Half of the steady demand and a third of the late one. -/
theorem blended_windNetwork : ∃ net net' net'',
    Network.build ((builtNodes windDrafts).map (·.supply steadyDemand)) windGrid .standard =
      .ok net ∧
    Network.build ((builtNodes windDrafts).map (·.supply lateDemand)) windGrid .standard =
      .ok net' ∧
    Network.build ((builtNodes windDrafts).map (·.supply fun name t =>
      1 / 2 * steadyDemand name t + 1 / 3 * lateDemand name t)) windGrid .standard = .ok net'' ∧
    net.model.program.Feasible (assignment windValues) ∧
    net'.model.program.Feasible (assignment lateValues) ∧
    net''.model.program.Feasible
      (fun i => 1 / 2 * assignment windValues i + 1 / 3 * assignment lateValues i) ∧
    net''.model.objective.eval
        (fun i => 1 / 2 * assignment windValues i + 1 / 3 * assignment lateValues i) =
      1 / 2 * net.model.objective.eval (assignment windValues) +
        1 / 3 * net'.model.objective.eval (assignment lateValues) := by
  have hbuilt : ∀ n ∈ builtNodes windDrafts, (n.supply steadyDemand).Built := fun n hn =>
    (built_of_mem hn).supply steadyDemand
  obtain ⟨net, h⟩ := exists_of_isOk (x := Network.build ((builtNodes windDrafts).map
    (·.supply steadyDemand)) windGrid .standard) (by decide +kernel)
  obtain ⟨-, net', net'', h', h'', -, -, hblend⟩ := Network.feasible_blended hbuilt h lateDemand
    (a := 1 / 2) (b := 1 / 3) (by norm_num) (by norm_num)
  have hsteady := Network.feasible_of_all h nonneg_windValues (by decide +kernel)
  have hlate := Network.feasible_of_all h' nonneg_lateValues (by decide +kernel)
  obtain ⟨hfeasible, hobjective⟩ := hblend _ _ hsteady hlate
  exact ⟨net, net', net'', h, h', h'', hsteady, hlate, hfeasible, hobjective⟩

end SupplyNet
