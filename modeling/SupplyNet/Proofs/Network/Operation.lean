import Mathlib
import SupplyNet.Proofs.Network.ColumnUnits
import SupplyNet.Proofs.Network.Exact
import SupplyNet.Proofs.Network.Labels

/-!
Operations. An assignment of numbers to the columns of a network gives each node a size, a storage
and flows. It is feasible exactly if no column is negative and each node operates: its outputs are
balanced, its storage goes through a cycle, its flows are in proportion and its size limits them.
-/
set_option autoImplicit false

namespace SupplyNet

/-- No value of a storage is negative. -/
structure StorageValues.Nonneg (steps : Nat) (v : StorageValues) : Prop where
  size : 0 ≤ v.size
  level : ∀ t < steps, 0 ≤ v.level t
  charge : ∀ t < steps, 0 ≤ v.charge t
  discharge : ∀ t < steps, 0 ≤ v.discharge t

/-- Two storages have the same values in all time steps. -/
structure StorageValues.Agree (steps : Nat) (v w : StorageValues) : Prop where
  size : w.size = v.size
  level : ∀ t < steps, w.level t = v.level t
  charge : ∀ t < steps, w.charge t = v.charge t
  discharge : ∀ t < steps, w.discharge t = v.discharge t

theorem StorageValues.Nonneg.congr {steps : Nat} {v w : StorageValues} (h : v.Nonneg steps)
    (ha : v.Agree steps w) : w.Nonneg steps := by
  refine ⟨?_, fun t ht => ?_, fun t ht => ?_, fun t ht => ?_⟩
  · rw [ha.size]
    exact h.size
  · rw [ha.level t ht]
    exact h.level t ht
  · rw [ha.charge t ht]
    exact h.charge t ht
  · rw [ha.discharge t ht]
    exact h.discharge t ht

theorem Storage.Cycle.congr {s : Storage Rat} {hours : Rat} {steps : Nat} {v w : StorageValues}
    (h : s.Cycle hours steps v) (ha : v.Agree steps w) : s.Cycle hours steps w := by
  intro t ht
  have hprevious : (t + steps - 1) % steps < steps := Nat.mod_lt _ (by omega)
  have hstep := h t ht
  constructor
  · rw [ha.charge t ht, ha.size]
    exact hstep.charge_le
  · rw [ha.discharge t ht, ha.size]
    exact hstep.discharge_le
  · rw [ha.level t ht, ha.size]
    exact hstep.level_le
  · rw [ha.level t ht, ha.level _ hprevious, ha.charge t ht, ha.discharge t ht]
    exact hstep.level_eq

/-- What a node does over all time steps. -/
structure Operation where
  size : Rat
  storage : StorageValues
  inflow : Nat → Label → Rat
  outflow : Nat → Label → Rat

/-- The operation of a node under an assignment. -/
def Node.operation (catalogue : Catalogue Rat) (m : Model Rat) (x : Var → Rat) (n : Node Rat) :
    Operation :=
  ⟨x (m.scalarOf (.size n.name)), m.storageValues x n.name, n.inflowOf catalogue m x,
    n.outflowOf catalogue m x⟩

namespace Node

/-- What is charged more than discharged in a time step, as a flow. -/
def netCharge (hours : Rat) (n : Node Rat) (o : Operation) (t : Nat) : Rat :=
  if n.storage.isSome then (o.storage.charge t - o.storage.discharge t) / hours else 0

/-- What is charged in a time step, as a flow. -/
def chargeFlow (hours : Rat) (n : Node Rat) (o : Operation) (t : Nat) : Rat :=
  if n.storage.isSome then 1 / hours * o.storage.charge t else 0

/-- What all conditions of a node say of its operation. -/
structure Operates (nodes : List (Node Rat)) (catalogue : Catalogue Rat) (hours : Rat)
    (steps : Nat) (n : Node Rat) (o : Operation) : Prop where
  balanced : ∀ output ∈ outputNames nodes n, ∀ t < steps,
    Label.total (outLabels nodes n) (fun l => l.commodity = output) (o.outflow t) +
        n.netCharge hours o t =
      n.factorTo nodes catalogue output *
        Label.total (inLabels nodes n) (fun l => n.madeFrom output l.commodity) (o.inflow t)
  cycle : ∀ s ∈ n.storage, s.Cycle hours steps o.storage
  inputs : ∀ r ∈ n.inputProportions, ∀ t < steps,
    Label.InProportion catalogue (inLabels nodes n) r (o.inflow t)
  outputs : ∀ r ∈ n.outputProportions, ∀ t < steps,
    Label.InProportion catalogue (outLabels nodes n) r (o.outflow t)
  limited : n.hasSize = true → n.kind ≠ .scalableInput → ∀ t < steps,
    Label.total (outLabels nodes n) (fun l => l.commodity = n.sizeName nodes) (o.outflow t) +
      n.chargeFlow hours o t ≤ o.size

/-- What the conditions of a node say of its operation, but for those of its storage alone. -/
structure Passes (nodes : List (Node Rat)) (catalogue : Catalogue Rat) (hours : Rat)
    (steps : Nat) (n : Node Rat) (o : Operation) : Prop where
  balanced : ∀ output ∈ outputNames nodes n, ∀ t < steps,
    Label.total (outLabels nodes n) (fun l => l.commodity = output) (o.outflow t) +
        n.netCharge hours o t =
      n.factorTo nodes catalogue output *
        Label.total (inLabels nodes n) (fun l => n.madeFrom output l.commodity) (o.inflow t)
  inputs : ∀ r ∈ n.inputProportions, ∀ t < steps,
    Label.InProportion catalogue (inLabels nodes n) r (o.inflow t)
  outputs : ∀ r ∈ n.outputProportions, ∀ t < steps,
    Label.InProportion catalogue (outLabels nodes n) r (o.outflow t)
  limited : n.hasSize = true → n.kind ≠ .scalableInput → ∀ t < steps,
    Label.total (outLabels nodes n) (fun l => l.commodity = n.sizeName nodes) (o.outflow t) +
      n.chargeFlow hours o t ≤ o.size

theorem operates_iff_passes {nodes : List (Node Rat)} {catalogue : Catalogue Rat} {hours : Rat}
    {steps : Nat} {n : Node Rat} {o : Operation} : n.Operates nodes catalogue hours steps o ↔
      n.Passes nodes catalogue hours steps o ∧ ∀ s ∈ n.storage, s.Cycle hours steps o.storage :=
  ⟨fun h => ⟨⟨h.balanced, h.inputs, h.outputs, h.limited⟩, h.cycle⟩,
    fun ⟨h, hcycle⟩ => ⟨h.balanced, hcycle, h.inputs, h.outputs, h.limited⟩⟩

/-! ## Operations that agree -/

/-- A node may have a storage that charges less, if it charges as much more than it discharges. -/
theorem Passes.restock {nodes : List (Node Rat)} {catalogue : Catalogue Rat} {hours : Rat}
    {steps : Nat} {n : Node Rat} {o o' : Operation} (h : n.Passes nodes catalogue hours steps o)
    (hsize : n.hasSize = true → o'.size = o.size)
    (hin : ∀ t < steps, ∀ l ∈ inLabels nodes n, o'.inflow t l = o.inflow t l)
    (hout : ∀ t < steps, ∀ l ∈ outLabels nodes n, o'.outflow t l = o.outflow t l)
    (hnet : ∀ t < steps, n.netCharge hours o' t = n.netCharge hours o t)
    (hcharge : ∀ t < steps, n.chargeFlow hours o' t ≤ n.chargeFlow hours o t) :
    n.Passes nodes catalogue hours steps o' := by
  refine ⟨fun output ho t ht => ?_, fun r hr t ht => ?_, fun r hr t ht => ?_,
    fun hs hk t ht => ?_⟩
  · rw [Label.total_congr (hout t ht), Label.total_congr (hin t ht), hnet t ht]
    exact h.balanced output ho t ht
  · exact (h.inputs r hr t ht).congr fun l hl => (hin t ht l hl).symm
  · exact (h.outputs r hr t ht).congr fun l hl => (hout t ht l hl).symm
  · rw [Label.total_congr (hout t ht), hsize hs]
    exact (add_le_add_right (hcharge t ht) _).trans (h.limited hs hk t ht)

/-- Two operations that a node cannot tell apart. -/
structure Agree (nodes : List (Node Rat)) (steps : Nat) (n : Node Rat) (o o' : Operation) :
    Prop where
  size : n.hasSize = true → o'.size = o.size
  storage : n.storage.isSome = true → o.storage.Agree steps o'.storage
  inflow : ∀ t < steps, ∀ l ∈ inLabels nodes n, o'.inflow t l = o.inflow t l
  outflow : ∀ t < steps, ∀ l ∈ outLabels nodes n, o'.outflow t l = o.outflow t l

theorem Operates.congr {nodes : List (Node Rat)} {catalogue : Catalogue Rat} {hours : Rat}
    {steps : Nat} {n : Node Rat} {o o' : Operation} (h : n.Operates nodes catalogue hours steps o)
    (ha : n.Agree nodes steps o o') : n.Operates nodes catalogue hours steps o' := by
  have hnet : ∀ t < steps, n.netCharge hours o' t = n.netCharge hours o t := by
    intro t ht
    unfold netCharge
    split
    · next hst => rw [(ha.storage hst).charge t ht, (ha.storage hst).discharge t ht]
    · rfl
  have hcharge : ∀ t < steps, n.chargeFlow hours o' t = n.chargeFlow hours o t := by
    intro t ht
    unfold chargeFlow
    split
    · next hst => rw [(ha.storage hst).charge t ht]
    · rfl
  obtain ⟨hpasses, hcycle⟩ := operates_iff_passes.1 h
  refine operates_iff_passes.2 ⟨hpasses.restock ha.size ha.inflow ha.outflow hnet
    fun t ht => (hcharge t ht).le, fun s hs => ?_⟩
  exact (hcycle s hs).congr (ha.storage (by rw [Option.mem_def.1 hs]; rfl))

/-! ## The conditions of a node -/

section Rows

variable {nodes : List (Node Rat)} {catalogue : Catalogue Rat} {x : Var → Rat} {n : Node Rat}
variable {c : NodeCommodities} {f : NodeFlows Rat} {steps : Nat} {hours : Rat} {rows : Rows Rat}
variable (hnames : ((variableKeys nodes).map (·.name)).Nodup) (hn : n ∈ nodes)
variable (h : n.Bound catalogue (outlets nodes n.name) (registry nodes steps) c f)

include hnames hn h

theorem balanceRows_hold_iff {outputs : List String} {output : String}
    (hr : n.balanceRows catalogue steps hours f outputs output = .ok rows) :
    (∀ d ∈ rows, d.Holds x) ↔ ∀ t < steps,
      Label.total (outLabels nodes n) (fun l => l.commodity = output)
          ((n.operation catalogue (registry nodes steps) x).outflow t) +
          n.netCharge hours (n.operation catalogue (registry nodes steps) x) t =
        n.factorTo nodes catalogue output *
          Label.total (inLabels nodes n) (fun l => n.madeFrom output l.commodity)
            ((n.operation catalogue (registry nodes steps) x).inflow t) := by
  obtain ⟨inputs, factor, hconv, rfl⟩ := balanceRows_eq_ok_iff.1 hr
  simp only [rowsOver, List.forall_mem_map, List.mem_range]
  refine forall₂_congr fun t ht => ?_
  rw [show n.netCharge hours (n.operation catalogue (registry nodes steps) x) t =
    storedAt (registry nodes steps) x hours n t from rfl]
  change (balanceAt hours f output inputs factor t).eval x = 0 ↔ _
  rw [← balanced_iff x hnames ht hn h hconv hours]
  unfold Balanced
  rw [totalOf_outflowsAt, totalOf_inflowsAt]
  rfl

theorem storageRows_hold_iff_cycle :
    (∀ d ∈ n.storageRows steps hours f, d.Holds x) ↔ ∀ s ∈ n.storage,
      s.Cycle hours steps (n.operation catalogue (registry nodes steps) x).storage := by
  cases hs : n.storage with
  | none => simp [storageRows, hs]
  | some s =>
    rw [storageRows_hold_iff hnames hn hs h hours]
    simp only [Option.mem_some_iff, forall_eq']
    rfl

theorem sizeRows_hold_iff (hr : n.sizeRows steps hours f = .ok rows) :
    (∀ d ∈ rows, d.Holds x) ↔ (n.hasSize = true → n.kind ≠ .scalableInput → ∀ t < steps,
      Label.total (outLabels nodes n) (fun l => l.commodity = n.sizeName nodes)
          ((n.operation catalogue (registry nodes steps) x).outflow t) +
          n.chargeFlow hours (n.operation catalogue (registry nodes steps) x) t ≤
        (n.operation catalogue (registry nodes steps) x).size) := by
  unfold sizeRows at hr
  rw [h.size, h.sizeCommodity, sizeIn] at hr
  by_cases hsize : n.hasSize = true
  · have hcommodity := size_eq_sizeName h.settled (by rw [hsize, Bool.true_or])
    rw [if_pos hsize, hcommodity] at hr
    by_cases hk : n.kind = .scalableInput
    · simp only [if_pos hk, Except.ok.injEq] at hr
      rw [← hr]
      simp [hk]
    · simp only [if_neg hk, Except.ok.injEq] at hr
      rw [← hr]
      simp only [rowsOver, List.forall_mem_map, List.mem_range, hsize, ne_eq, hk,
        not_false_eq_true, true_implies]
      refine forall₂_congr fun t ht => ?_
      change (excessAt hours f ((registry nodes steps).scalarOf (.size n.name))
        (n.sizeName nodes) t).eval x ≤ 0 ↔ _
      rw [eval_excessAt hnames hn h x ht, sub_nonpos, totalOf_outflowsAt]
      rfl
  · simp only [if_neg hsize, Except.ok.injEq] at hr
    rw [← hr]
    simp [hsize]

/-- The conditions of a node hold exactly if it operates. -/
theorem rows_hold_iff
    (hmade : ∀ r ∈ n.rows catalogue steps hours f, ∃ rows, r = .ok rows) :
    (∀ rows, .ok rows ∈ n.rows catalogue steps hours f → ∀ d ∈ rows, d.Holds x) ↔
      n.Operates nodes catalogue hours steps
        (n.operation catalogue (registry nodes steps) x) := by
  have hin : ∀ t < steps, ∀ s ∈ f.inflows, (s.flow.atStep t).eval x =
      (n.operation catalogue (registry nodes steps) x).inflow t s.label :=
    fun t ht => eval_inflow hnames hn h ht
  have hout : ∀ t < steps, ∀ s ∈ f.outflows, (s.flow.atStep t).eval x =
      (n.operation catalogue (registry nodes steps) x).outflow t s.label :=
    fun t ht => eval_outflow hnames hn h ht
  have hmem : ∀ {r}, r ∈ [.ok (n.storageRows steps hours f),
      n.proportionRows catalogue steps .input f.inflows n.inputProportions,
      n.proportionRows catalogue steps .output f.outflows n.outputProportions,
      n.sizeRows steps hours f] → r ∈ n.rows catalogue steps hours f :=
    fun hr => List.mem_append_right _ hr
  obtain ⟨ins, hins⟩ := hmade _ (hmem (.tail _ (.head _)))
  obtain ⟨outs, houts⟩ := hmade _ (hmem (.tail _ (.tail _ (.head _))))
  obtain ⟨sizes, hsizes⟩ := hmade _ (hmem (.tail _ (.tail _ (.tail _ (.head _)))))
  have hinputs := proportionRows_hold_iff hin hins
  have houtputs := proportionRows_hold_iff hout houts
  rw [label_inflows h] at hinputs
  rw [label_outflows h] at houtputs
  constructor
  · intro hall
    refine ⟨fun output ho => ?_,
      (storageRows_hold_iff_cycle hnames hn h).1 (hall _ (hmem (.head _))),
      hinputs.1 (hall _ (hins ▸ hmem (.tail _ (.head _)))),
      houtputs.1 (hall _ (houts ▸ hmem (.tail _ (.tail _ (.head _))))),
      (sizeRows_hold_iff hnames hn h hsizes).1
        (hall _ (hsizes ▸ hmem (.tail _ (.tail _ (.tail _ (.head _))))))⟩
    have hrow : n.balanceRows catalogue steps hours f
        (distinct (f.outflows.map (·.commodity))) output ∈ n.rows catalogue steps hours f := by
      refine List.mem_append_left _ (List.mem_map_of_mem ?_)
      rw [mem_distinct, map_commodity_outflows h]
      exact ho
    obtain ⟨rows, hr⟩ := hmade _ hrow
    exact (balanceRows_hold_iff hnames hn h hr).1 (hall _ (hr ▸ hrow))
  · intro ho rows hr
    rcases List.mem_append.1 hr with hr | hr
    · obtain ⟨output, hmem, hr⟩ := List.mem_map.1 hr
      rw [mem_distinct, map_commodity_outflows h] at hmem
      exact (balanceRows_hold_iff hnames hn h hr).2 (ho.balanced output hmem)
    · simp only [List.mem_cons, List.not_mem_nil, or_false] at hr
      rcases hr with hr | hr | hr | hr
      · rw [Except.ok.inj hr]
        exact (storageRows_hold_iff_cycle hnames hn h).2 ho.cycle
      · rw [Except.ok.inj (hr.trans hins)]
        exact hinputs.2 ho.inputs
      · rw [Except.ok.inj (hr.trans houts)]
        exact houtputs.2 ho.outputs
      · rw [Except.ok.inj (hr.trans hsizes)]
        exact (sizeRows_hold_iff hnames hn h hsizes).2 ho.limited

end Rows

end Node

/-! ## Feasible assignments -/

namespace Compiled

variable {nodes : List (Node Rat)} {grid : Grid} {config : Config Rat} {cs : List NodeCommodities}
variable {groups : List (Rows Rat)} {net : Network Rat} {x : Var → Rat}

/-- Every node operates under a feasible assignment. -/
theorem operates (h : Compiled nodes grid config cs groups net) (hbuilt : ∀ n ∈ nodes, n.Built)
    (hall : ∀ c ∈ net.model.constraints, c.Holds x) {n : Node Rat} (hn : n ∈ nodes) :
    n.Operates nodes config.catalogue grid.hours grid.size
      (n.operation config.catalogue (registry nodes grid.size) x) := by
  obtain ⟨f, hp⟩ := h.exists_flows hn
  obtain ⟨c, hbound⟩ := h.bound hp
  refine (Node.rows_hold_iff h.names_nodup hn hbound fun r hr => h.exists_rows hp hr).1
    fun rows hr d hd => h.holds hall hp hr hd ?_
  exact Node.exact_rows h.names_nodup hn hbound h.wired (hbuilt n hn) hr hd

/-- All stored conditions hold if every node operates. -/
theorem holds_of_operates (h : Compiled nodes grid config cs groups net)
    (hall : ∀ n ∈ nodes, n.Operates nodes config.catalogue grid.hours grid.size
      (n.operation config.catalogue (registry nodes grid.size) x)) :
    ∀ c ∈ net.model.constraints, c.Holds x := by
  intro c hc
  obtain ⟨n, f, rows, hp, hr, d, hd, -, rfl⟩ := h.mem_constraints.1 hc
  have hn : n ∈ nodes := (List.of_mem_zip hp).1
  obtain ⟨c, hbound⟩ := h.bound hp
  rw [Constraint.holds_normalized]
  exact (Node.rows_hold_iff h.names_nodup hn hbound fun r hr => h.exists_rows hp hr).2
    (hall n hn) rows hr d hd

/-- An assignment is feasible exactly if no column is negative and every node operates. -/
theorem feasible_iff_operates (h : Compiled nodes grid config cs groups net)
    (hbuilt : ∀ n ∈ nodes, n.Built) :
    net.model.program.Feasible x ↔
      (∀ v : Var, v.index < net.model.columns.size → 0 ≤ x v) ∧
        ∀ n ∈ nodes, n.Operates nodes config.catalogue grid.hours grid.size
          (n.operation config.catalogue (registry nodes grid.size) x) := by
  rw [h.feasible_iff]
  exact and_congr_right fun _ => ⟨fun hall n hn => h.operates hbuilt hall hn, h.holds_of_operates⟩

end Compiled

end SupplyNet
