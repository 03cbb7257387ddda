import Mathlib
import SupplyNet.Proofs.Network.Storages
import SupplyNet.Proofs.Related

/-!
Conditions without columns. A network stores none of them, and none is missed: those of a balance or
a size have columns, and those of a storage or of proportions hold if nothing flows.
-/
set_option autoImplicit false

namespace SupplyNet

namespace Constraint

/-- The stored conditions say as much as all of them. -/
theorem forall_stored_holds_iff {cs : List (Constraint Rat)} (h : ∀ c ∈ cs, c.Exact)
    (x : Var → Rat) : (∀ c ∈ stored cs, c.Holds x) ↔ ∀ c ∈ cs, c.Holds x := by
  constructor
  · intro hall c hc
    cases hconst : c.expr.isConst with
    | true => exact h c hc hconst x
    | false => exact (holds_normalized c x).1 (hall _ (mem_stored.2 ⟨c, hc, hconst, rfl⟩))
  · intro hall c hc
    obtain ⟨d, hd, -, rfl⟩ := mem_stored.1 hc
    exact (holds_normalized d x).2 (hall d hd)

end Constraint

namespace Node

/-! ## Proportions -/

/-- The flows that share a ratio are flows of the node. -/
theorem exists_stream_of_proportionGroup {n : Node Rat} {catalogue : Catalogue Rat}
    {side : Direction} {streams : List (Stream Rat)} {byCommodity : Bool} {key : String}
    {ratio : Quantity Rat} {g : ProportionGroup Rat}
    (h : n.proportionGroup catalogue side streams byCommodity key ratio = .ok g) :
    ∀ flow ∈ g.flows, ∃ s ∈ streams, s.flow = flow := by
  unfold proportionGroup at h
  dsimp only at h
  split at h
  · exact absurd h (by simp)
  · obtain ⟨unit, -, h⟩ := bind_eq_ok_iff.1 h
    obtain ⟨value, -, h⟩ := bind_eq_ok_iff.1 h
    split at h
    · rw [← Except.ok.inj h]
      intro flow hflow
      obtain ⟨s, hs, rfl⟩ := List.mem_map.1 hflow
      exact ⟨s, List.mem_of_mem_filter hs, rfl⟩
    · exact absurd h (throw_ne_ok _ _)

/-- Nothing is in proportion to nothing. -/
theorem exact_proportionRows {n : Node Rat} {catalogue : Catalogue Rat} {steps : Nat}
    {side : Direction} {streams : List (Stream Rat)} {ratios : Option (Keyed (Quantity Rat))}
    {rows : Rows Rat} (h : n.proportionRows catalogue steps side streams ratios = .ok rows)
    (hzero : ratios.isSome = true → ∀ s ∈ streams, ∀ t < steps,
      (s.flow.atStep t).eval (fun _ => 0) = 0) {d : Constraint Rat} (hd : d ∈ rows) : d.Exact := by
  unfold proportionRows at h
  split at h
  · rw [← Except.ok.inj h] at hd
    exact absurd hd List.not_mem_nil
  · obtain ⟨groups, hgroups, h⟩ := bind_eq_ok_iff.1 h
    have hshare : ∀ g ∈ groups, ∀ t < steps, (g.shareAt t).eval (fun _ => 0) = 0 := by
      refine (Matched.of_forall₂ (mapM_eq_ok_iff.1 hgroups)).forall_mem ?_
      intro p _ g hg t ht
      unfold ProportionGroup.shareAt
      rw [LinearExpr.eval_scale, eval_sumAt, List.sum_eq_zero, zero_mul]
      intro r hr
      obtain ⟨flow, hflow, rfl⟩ := List.mem_map.1 hr
      obtain ⟨s, hs, rfl⟩ := exists_stream_of_proportionGroup hg flow hflow
      exact hzero rfl s hs t ht
    split at h
    · rw [← Except.ok.inj h] at hd
      exact absurd hd List.not_mem_nil
    · next reference others =>
      rw [← Except.ok.inj h] at hd
      obtain ⟨g, hg, hd⟩ := List.mem_flatMap.1 hd
      obtain ⟨t, ht, rfl⟩ := mem_rowsOver.1 hd
      refine Constraint.exact_of_holds (y := fun _ => 0) ?_
      change (reference.shareAt t - g.shareAt t).eval (fun _ => 0) = 0
      rw [LinearExpr.eval_sub, hshare reference List.mem_cons_self t ht,
        hshare g (List.mem_cons_of_mem _ hg) t ht, sub_zero]

theorem eval_zero_of_map_eq {streams : List (Stream Rat)} {t : Nat}
    {keys : List (String × VariableKey)}
    (h : streams.map (fun s => (s.commodity, (s.flow.atStep t).eval fun _ => 0)) =
      keys.map fun q => (q.1, 0)) : ∀ s ∈ streams, (s.flow.atStep t).eval (fun _ => 0) = 0 := by
  intro s hs
  have hmem := List.mem_map_of_mem (f := fun s : Stream Rat =>
    (s.commodity, (s.flow.atStep t).eval fun _ => 0)) hs
  rw [h] at hmem
  obtain ⟨q, -, hq⟩ := List.mem_map.1 hmem
  exact (Prod.mk.inj hq).2.symm

section Bound

variable {nodes : List (Node Rat)} {catalogue : Catalogue Rat} {steps : Nat} {n : Node Rat}
variable {c : NodeCommodities} {f : NodeFlows Rat} {t : Nat}
variable (hnames : ((variableKeys nodes).map (·.name)).Nodup) (hn : n ∈ nodes)
variable (h : n.Bound catalogue (outlets nodes n.name) (registry nodes steps) c f)

include hnames hn h

/-- Flows into a node that are variables vanish with their columns. -/
theorem eval_inflow_zero (hk : ¬n.kind.isInput) (ht : t < steps) :
    ∀ s ∈ f.inflows, (s.flow.atStep t).eval (fun _ => 0) = 0 := by
  have hmap := map_inflows (fun _ => 0) hnames ht hn h
  rw [inflowsAt_eq _ _ _ _ hk] at hmap
  exact eval_zero_of_map_eq hmap

theorem eval_outflow_zero (hk : n.kind ≠ .fixedOutput) (ht : t < steps) :
    ∀ s ∈ f.outflows, (s.flow.atStep t).eval (fun _ => 0) = 0 := by
  have hmap := map_outflows (fun _ => 0) hnames ht hn h
  rw [outflowsAt_eq _ _ _ _ hk] at hmap
  exact eval_zero_of_map_eq hmap

/-! ## Size -/

/-- The left side of the limit that a size puts on the output. -/
theorem eval_excessAt (x : Var → Rat) (ht : t < steps) (hours : Rat) (size : Var)
    (commodity : String) : (excessAt hours f size commodity t).eval x =
      totalOf (· = commodity) (outflowsAt nodes catalogue (registry nodes steps) x n t) +
        (if n.storage.isSome then
          1 / hours * x ((registry nodes steps).columnOf (.charge n.name) t) else 0) - x size := by
  have hout := eval_sumAt_outflows x hnames ht hn h commodity
  unfold excessAt
  rw [LinearExpr.eval_sub, LinearExpr.eval_ofVar, h.storage]
  unfold storageIn
  congr 1
  by_cases hst : n.storage.isSome = true
  · have hk : .charge n.name ∈ variableKeys nodes :=
      mem_variableKeys_storage hn hst _ (by simp [storageKeys])
    simp only [if_pos hst, LinearExpr.eval_add, hout, StorageVars.chargeRate, Model.storageOf]
    rw [eval_termAt hnames hk rfl ht]
  · simp only [if_neg hst, hout, add_zero]

/-- The size of a node counts in the condition that limits its output. -/
theorem isConst_excessAt (hw : Wired nodes) (hsize : n.hasSize = true) (ht : t < steps)
    (hours : Rat) (commodity : String) :
    (excessAt hours f ((registry nodes steps).scalarOf (.size n.name)) commodity t).isConst =
      false := by
  obtain ⟨x, hx⟩ : ∃ x, x = unitAt ((registry nodes steps).scalarOf (.size n.name)) := ⟨_, rfl⟩
  have hone : x ((registry nodes steps).scalarOf (.size n.name)) = 1 := by
    rw [hx]
    exact if_pos rfl
  have hcolumn : ∀ k ∈ variableKeys nodes, k.steps? steps = some steps →
      x ((registry nodes steps).columnOf k t) = 0 := by
    intro k hk hs
    rw [hx]
    exact if_neg fun he =>
      scalarOf_ne_columnOf hnames (mem_variableKeys_size hn hsize) rfl hk hs ht he.symm
  have hout : outflowsAt nodes catalogue (registry nodes steps) x n t =
      outflowsAt nodes catalogue (registry nodes steps) (fun _ => 0) n t := by
    by_cases hk : n.kind = .fixedOutput
    · refine outflowsAt_of_fixedOutput hk ?_
      by_contra hs
      exact hw.not_isOutput_of_served hn hs (by rw [hk]; decide)
    · rw [outflowsAt_eq _ _ _ _ hk, outflowsAt_eq _ _ _ _ hk]
      refine List.map_congr_left fun q hq => ?_
      rw [hcolumn q.2 (outKeys_mem_variableKeys hn hk hq) (steps_outKeys hq steps)]
  apply LinearExpr.isConst_eq_false_of_eval_ne (x := x) (y := fun _ => 0)
  rw [eval_excessAt hnames hn h _ ht, eval_excessAt hnames hn h _ ht, hout, hone]
  intro he
  by_cases hst : n.storage.isSome = true
  · have hcharge := hcolumn (.charge n.name)
      (mem_variableKeys_storage hn hst _ (by simp [storageKeys])) rfl
    rw [if_pos hst, if_pos hst, hcharge] at he
    linarith
  · rw [if_neg hst, if_neg hst] at he
    linarith

theorem exact_sizeRows (hw : Wired nodes) {hours : Rat} {rows : Rows Rat}
    (hr : n.sizeRows steps hours f = .ok rows) {d : Constraint Rat} (hd : d ∈ rows) : d.Exact := by
  unfold sizeRows at hr
  rw [h.size, sizeIn] at hr
  split at hr
  · rw [← Except.ok.inj hr] at hd
    exact absurd hd List.not_mem_nil
  · next v hv =>
    split at hv
    · next hsize =>
      split at hr
      · rw [← Except.ok.inj hr] at hd
        exact absurd hd List.not_mem_nil
      · split at hr
        · exact absurd hr (by simp)
        · rw [← Except.ok.inj hr] at hd
          obtain ⟨t, ht, rfl⟩ := mem_rowsOver.1 hd
          refine Constraint.exact_of_isConst ?_
          rw [← Option.some.inj hv]
          exact isConst_excessAt hnames hn h hw hsize ht hours _
    · exact absurd hv (by simp)

/-! ## All conditions -/

/-- Whatever the units are, no condition of a node is lost as it has no columns. -/
theorem exact_rows (hw : Wired nodes) (hbuilt : n.Built) {hours : Rat} {rows : Rows Rat}
    (hr : .ok rows ∈ n.rows catalogue steps hours f) {d : Constraint Rat} (hd : d ∈ rows) :
    d.Exact := by
  unfold Node.rows at hr
  rcases List.mem_append.1 hr with hr | hr
  · obtain ⟨output, ho, hr⟩ := List.mem_map.1 hr
    rw [mem_distinct, map_commodity_outflows h] at ho
    obtain ⟨inputs, factor, hconv, rfl⟩ := balanceRows_eq_ok_iff.1 hr
    obtain ⟨t, ht, rfl⟩ := mem_rowsOver.1 hd
    exact Constraint.exact_of_isConst
      (isConst_balanceAt_of_wired hw hnames hn hbuilt h ho hconv ht)
  · simp only [List.mem_cons, List.not_mem_nil, or_false] at hr
    rcases hr with hr | hr | hr | hr
    · rw [Except.ok.inj hr] at hd
      cases hstorage : n.storage with
      | none => simp [storageRows, hstorage] at hd
      | some s => exact exact_storageRows hnames hn hstorage h hd
    · refine exact_proportionRows hr.symm (fun hsome s hs t ht => ?_) hd
      refine eval_inflow_zero hnames hn h (fun hk => ?_) ht s hs
      simp [hbuilt.inputProportions_of_isInput hk] at hsome
    · refine exact_proportionRows hr.symm (fun hsome s hs t ht => ?_) hd
      refine eval_outflow_zero hnames hn h (fun hk => ?_) ht s hs
      simp [hbuilt.outputProportions_of_isOutput (by rw [hk]; decide)] at hsome
    · exact exact_sizeRows hnames hn h hw hr.symm hd

theorem exact_of_rows (hw : Wired nodes) (hbuilt : n.Built) {hours : Rat}
    {rows : List (Rows Rat)} (hrows : n.rows catalogue steps hours f = rows.map .ok) :
    ∀ d ∈ rows.flatten, d.Exact := by
  intro d hd
  obtain ⟨group, hgroup, hd⟩ := List.mem_flatten.1 hd
  have hr : .ok group ∈ n.rows catalogue steps hours f := by
    rw [hrows]
    exact List.mem_map_of_mem hgroup
  exact exact_rows hnames hn h hw hbuilt hr hd

end Bound

end Node

end SupplyNet
