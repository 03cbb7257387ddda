import Mathlib
import SupplyNet.Proofs.Linear.Added
import SupplyNet.Proofs.Linear.Prices
import SupplyNet.Proofs.Network.BalanceRows
import SupplyNet.Proofs.Network.Counterparts

/-!
The program of a network. Every column is bounded by zero. A condition with columns is stored as it
is, and one without must hold but for rounding; where it holds under some assignment it holds under
all of them, so nothing is lost if it is dropped.
-/
set_option autoImplicit false

namespace SupplyNet

namespace Constraint

variable {c : Constraint Rat}

/-- A condition that is dropped for want of columns holds exactly. -/
def Exact (c : Constraint Rat) : Prop := c.expr.isConst = true → ∀ x, c.Holds x

theorem exact_of_isConst (h : c.expr.isConst = false) : c.Exact := fun he =>
  absurd (h.symm.trans he) (by simp)

/-- A condition without columns does not depend on the assignment. -/
theorem exact_of_holds {y : Var → Rat} (h : c.Holds y) : c.Exact := by
  intro hconst x
  unfold Holds at h ⊢
  rw [LinearExpr.eval_of_isConst hconst] at h ⊢
  exact h

theorem Exact.admissible (h : c.Exact) : c.Admissible := by
  intro hconst
  have hrelates := (c.holds_iff_relates _).1 (h hconst fun _ => 0)
  rw [LinearExpr.eval_of_isConst hconst] at hrelates
  exact (admissible_iff hconst).2 (hrelates.within (by norm_num)) hconst

end Constraint

/-! ## Bounds -/

section Bounds

variable {nodes : List (Node Rat)} {steps : Nat} {x : Var → Rat}

theorem lower_of_mem_columns {column : Column Rat}
    (h : column ∈ (registry nodes steps).columns.toList) : column.lower = some 0 := by
  rw [columns_registry] at h
  obtain ⟨a, -, rfl⟩ := List.mem_map.1 h
  rfl

variable (hnames : ((variableKeys nodes).map (·.name)).Nodup)

include hnames

theorem index_columnOf_lt {k : VariableKey} (hk : k ∈ variableKeys nodes)
    (hs : k.steps? steps = some steps) {t : Nat} (ht : t < steps) :
    ((registry nodes steps).columnOf k t).index < (registry nodes steps).columns.size :=
  (consistent_registry steps hnames).index_lt (mem_places_columnOf hnames hk hs ht)

theorem index_scalarOf_lt {k : VariableKey} (hk : k ∈ variableKeys nodes)
    (hs : k.steps? steps = none) :
    ((registry nodes steps).scalarOf k).index < (registry nodes steps).columns.size :=
  (consistent_registry steps hnames).index_lt (mem_places_scalarOf hnames hk hs)

end Bounds

namespace Compiled

variable {nodes : List (Node Rat)} {grid : Grid} {config : Config Rat} {cs : List NodeCommodities}
variable {groups : List (Rows Rat)} {net : Network Rat} {x : Var → Rat}

theorem columns_eq (h : Compiled nodes grid config cs groups net) :
    net.model.columns = (registry nodes grid.size).columns := by
  rw [h.model]

theorem getElem?_lowers (h : Compiled nodes grid config cs groups net) {i : Nat} {l : Rat} :
    net.model.program.lowers[i]? = some (some l) ↔ i < net.model.columns.size ∧ l = 0 := by
  have hlower : ∀ column, net.model.columns[i]? = some column → column.lower = some 0 := by
    intro column hcolumn
    rw [h.columns_eq] at hcolumn
    exact lower_of_mem_columns (Array.mem_toList_iff.2 (Array.mem_of_getElem? hcolumn))
  unfold Model.program
  rw [Array.getElem?_map, Option.map_eq_some_iff]
  constructor
  · rintro ⟨column, hcolumn, hl⟩
    rw [hlower column hcolumn] at hl
    exact ⟨(Array.getElem?_eq_some_iff.1 hcolumn).1, (Option.some.inj hl).symm⟩
  · rintro ⟨hi, rfl⟩
    have hcolumn := Array.getElem?_eq_getElem hi
    exact ⟨_, hcolumn, hlower _ hcolumn⟩

/-- An assignment keeps to the bounds if no column is negative. -/
theorem bounds_iff (h : Compiled nodes grid config cs groups net) :
    (∀ i l, net.model.program.lowers[i]? = some (some l) → l ≤ x ⟨i⟩) ↔
      ∀ v : Var, v.index < net.model.columns.size → 0 ≤ x v := by
  simp only [h.getElem?_lowers]
  constructor
  · intro hall v hv
    exact hall v.index 0 ⟨hv, rfl⟩
  · intro hall i l hl
    rw [hl.2]
    exact hall ⟨i⟩ hl.1

theorem feasible_iff (h : Compiled nodes grid config cs groups net) :
    net.model.program.Feasible x ↔
      (∀ v : Var, v.index < net.model.columns.size → 0 ≤ x v) ∧
        ∀ c ∈ net.model.constraints, c.Holds x := by
  rw [← h.bounds_iff]
  rfl

/-- Of the conditions of a node, those that are not dropped wrongly hold if all stored ones do. -/
theorem holds (h : Compiled nodes grid config cs groups net)
    (hall : ∀ c ∈ net.model.constraints, c.Holds x) {n : Node Rat} {f : NodeFlows Rat}
    (hp : (n, f) ∈ nodes.zip net.flows) {rows : Rows Rat}
    (hr : .ok rows ∈ n.rows config.catalogue grid.size grid.hours f) {d : Constraint Rat}
    (hd : d ∈ rows) (hexact : d.Exact) : d.Holds x := by
  cases hconst : d.expr.isConst with
  | true => exact hexact hconst x
  | false =>
    rw [← Constraint.holds_normalized]
    exact hall _ (h.mem_constraints.2 ⟨n, f, rows, hp, hr, d, hd, hconst, rfl⟩)

/-- What flows out of a node of an output commodity and into its storage is what is converted. -/
theorem exists_balanceAt_eq_zero (h : Compiled nodes grid config cs groups net)
    (hall : ∀ c ∈ net.model.constraints, c.Holds x) {n : Node Rat} {f : NodeFlows Rat}
    (hp : (n, f) ∈ nodes.zip net.flows) (hbuilt : n.Built) {output : String}
    (ho : output ∈ Node.outputNames nodes n) {t : Nat} (ht : t < grid.size) :
    ∃ inputs factor, n.conversion config.catalogue f output = .ok (inputs, factor) ∧
      (Node.balanceAt grid.hours f output inputs factor t).eval x = 0 := by
  obtain ⟨c, hbound⟩ := h.bound hp
  have hrow : n.balanceRows config.catalogue grid.size grid.hours f
      (distinct (f.outflows.map (·.commodity))) output ∈
      n.rows config.catalogue grid.size grid.hours f := by
    refine List.mem_append_left _ (List.mem_map_of_mem ?_)
    rw [mem_distinct, Node.map_commodity_outflows hbound]
    exact ho
  obtain ⟨rows, hr⟩ := h.exists_rows hp hrow
  obtain ⟨inputs, factor, hconv, rfl⟩ := Node.balanceRows_eq_ok_iff.1 hr
  have hconst := Node.isConst_balanceAt h (List.of_mem_zip hp).1 hbuilt hbound ho hconv ht
  have hholds := h.holds hall hp (hr ▸ hrow) (mem_rowsOver.2 ⟨t, ht, rfl⟩)
    (Constraint.exact_of_isConst hconst)
  exact ⟨inputs, factor, hconv, hholds⟩

end Compiled

/-- Numbers of which none is negative are feasible if all conditions can be seen to hold. -/
theorem Network.feasible_of_all {nodes : List (Node Rat)} {grid : Grid} {config : Config Rat}
    {net : Network Rat} {values : Array Rat} (h : build nodes grid config = .ok net)
    (hvalues : ∀ q ∈ values, 0 ≤ q) (hall : (build nodes grid config).toOption.all
      (fun net => net.model.constraints.all fun c => c.Holds (assignment values)) = true) :
    net.model.program.Feasible (assignment values) := by
  obtain ⟨cs, groups, hc⟩ := build_eq_ok_iff.1 h
  rw [h] at hall
  refine hc.feasible_iff.2 ⟨fun v _ => ?_, fun c hmem => ?_⟩
  · unfold assignment
    cases hv : values[v.index]? with
    | none => exact le_refl 0
    | some q => exact hvalues q (Array.mem_of_getElem? hv)
  · exact of_decide_eq_true (Array.all_eq_true_iff_forall_mem.1 hall c hmem)

/-- Numbers of which none is negative are minimal if all conditions can be seen to hold and prices
support what they cost. -/
theorem Network.minimal_of_all {nodes : List (Node Rat)} {grid : Grid} {config : Config Rat}
    {net : Network Rat} {values : Array Rat} (prices : List Rat)
    (h : build nodes grid config = .ok net) (hvalues : ∀ q ∈ values, 0 ≤ q)
    (hall : (build nodes grid config).toOption.all (fun net =>
      (net.model.constraints.all fun c => c.Holds (assignment values)) &&
        net.model.program.Supports prices && net.model.objective.eval (assignment values) ≤
          net.model.program.yield prices + (net.model.program.reduced prices).const) = true) :
    net.model.program.Minimal (assignment values) := by
  rw [h] at hall
  simp only [Except.toOption, Option.all_some, Bool.and_eq_true, decide_eq_true_eq] at hall
  obtain ⟨⟨hholds, hsupports⟩, hcost⟩ := hall
  refine hsupports.minimal (feasible_of_all h hvalues ?_) hcost
  rw [h]
  exact hholds

/-! ## A wind farm in operation -/

/-- Six units of wind arrive at the battery in each hour. Ten are charged and nine discharged, and
the level stays at three. -/
def windValues : Array Rat := #[12, 6, 6, 20, 3, 3, 10, 10, 9, 9, 5, 5]

theorem nonneg_windValues : ∀ q ∈ windValues, 0 ≤ q := by decide +kernel

theorem exists_feasible_windNetwork :
    ∃ net, Network.build (builtNodes windDrafts) windGrid .standard = .ok net ∧
      net.model.program.Feasible (assignment windValues) := by
  obtain ⟨net, h⟩ := exists_windNetwork
  exact ⟨net, h, Network.feasible_of_all h nonneg_windValues (by decide +kernel)⟩

end SupplyNet
