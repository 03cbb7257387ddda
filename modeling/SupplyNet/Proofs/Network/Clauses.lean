import Mathlib
import SupplyNet.Proofs.Network.Operation

/-!
Clauses. What each condition of a node says can be told from the node and its neighbours: which of
its flows and columns exceed which others, and whether they may. The conditions that are made of a
node state its clauses, one after the other.
-/
set_option autoImplicit false

namespace SupplyNet

/-- What a condition of a node is about. -/
inductive Subject
  | balance (output : String)
  | chargeLimit
  | dischargeLimit
  | levelLimit
  | levelBalance
  | proportion (side : Direction) (key : String)
  | sizeLimit
  deriving DecidableEq

/-- What one condition of a node says of its operation. It holds if the excess is zero, or if it is
not positive, as the relation has it. -/
structure Clause where
  subject : Subject
  step : Nat
  name : String
  relation : Relation
  excess : Operation → Rat

namespace Clause

/-- The clauses of a name for all time steps. -/
def overSteps (steps : Nat) (subject : Subject) (name : String) (relation : Relation)
    (excess : Nat → Operation → Rat) : List Clause :=
  (List.range steps).map fun t => ⟨subject, t, s!"{name}[{t}]", relation, excess t⟩

def Holds (clause : Clause) (o : Operation) : Prop :=
  match clause.relation with
  | .eq => clause.excess o = 0
  | .le => clause.excess o ≤ 0
  | .ge => 0 ≤ clause.excess o

end Clause

namespace Node

section Clauses

variable (nodes : List (Node Rat)) (catalogue : Catalogue Rat) (hours : Rat) (steps : Nat)

def balanceClauses (n : Node Rat) (output : String) : List Clause :=
  Clause.overSteps steps (.balance output) (n.balanceName (distinct (outputNames nodes n)) output) .eq
    fun t o =>
      Label.total (outLabels nodes n) (fun l => l.commodity = output) (o.outflow t) +
          n.netCharge hours o t -
        n.factorTo nodes catalogue output *
          Label.total (inLabels nodes n) (fun l => n.madeFrom output l.commodity) (o.inflow t)

def storageClause (n : Node Rat) (t : Nat) (subject : Subject) (name : String) (relation : Relation)
    (excess : StorageValues → Rat) : Clause :=
  ⟨subject, t, s!"{name}_{n.name}[{t}]", relation, fun o => excess o.storage⟩

def levelBalanceClause (n : Node Rat) (s : Storage Rat) (t : Nat) : Clause :=
  n.storageClause t .levelBalance "storage_level_balance" .eq fun v =>
    v.level t - (1 - s.storageLoss) * v.level ((t + steps - 1) % steps) -
      (1 - s.chargingLoss) * v.charge t + v.discharge t

def storageClauses (n : Node Rat) (s : Storage Rat) : List Clause :=
  (List.range steps).flatMap fun t =>
    [n.storageClause t .chargeLimit "max_charging_speed" .le fun v =>
        v.charge t - s.speed * hours * v.size,
      n.storageClause t .dischargeLimit "max_discharging_speed" .le fun v =>
        v.discharge t - s.speed * hours * v.size,
      n.storageClause t .levelLimit "storage_max_level" .le fun v => v.level t - v.size,
      n.levelBalanceClause steps s t]

/-- Each share but the first one equals the first. -/
def proportionClauses (n : Node Rat) (side : Direction) (labels : List Label)
    (flow : Operation → Nat → Label → Rat) (ratios : Keyed (Quantity Rat)) : List Clause :=
  match ratios.entries with
  | [] => []
  | first :: others => others.flatMap fun e =>
    Clause.overSteps steps (.proportion side e.1) s!"proportion_{n.name}_{side.text}_{e.1}" .eq
      fun t o => Label.shareOf catalogue labels ratios (flow o t) first -
        Label.shareOf catalogue labels ratios (flow o t) e

def sizeClauses (n : Node Rat) : List Clause :=
  if n.hasSize ∧ n.kind ≠ .scalableInput then
    Clause.overSteps steps .sizeLimit s!"limit_outflow_by_size_{n.name}" .le fun t o =>
      Label.total (outLabels nodes n) (fun l => l.commodity = n.sizeName nodes) (o.outflow t) +
        n.chargeFlow hours o t - o.size
  else []

/-- What all conditions of a node say, in their order. -/
def clauses (n : Node Rat) : List Clause :=
  (distinct (outputNames nodes n)).flatMap (n.balanceClauses nodes catalogue hours steps) ++
    (n.storage.elim [] (n.storageClauses hours steps) ++
      (n.inputProportions.elim []
          (n.proportionClauses catalogue steps .input (inLabels nodes n) Operation.inflow) ++
        (n.outputProportions.elim []
            (n.proportionClauses catalogue steps .output (outLabels nodes n) Operation.outflow) ++
          n.sizeClauses nodes hours steps)))

end Clauses

end Node

/-! ## Conditions that state a clause -/

namespace Constraint

/-- A condition that says of each assignment what a clause says of the operation under it. -/
structure States (operation : (Var → Rat) → Operation) (clause : Clause) (c : Constraint Rat) :
    Prop where
  name : c.name = clause.name
  relation : c.relation = clause.relation
  excess : ∀ x, c.expr.eval x - c.rhs = clause.excess (operation x)

namespace States

variable {operation : (Var → Rat) → Operation} {clause : Clause} {c : Constraint Rat}

theorem holds_iff (h : c.States operation clause) (x : Var → Rat) :
    c.Holds x ↔ clause.Holds (operation x) := by
  unfold Constraint.Holds Clause.Holds
  rw [← h.relation, ← h.excess x]
  cases c.relation with
  | eq => exact sub_eq_zero.symm
  | le => exact sub_nonpos.symm
  | ge => exact sub_nonneg.symm

theorem normalized (h : c.States operation clause) : c.normalized.States operation clause := by
  refine ⟨h.name, h.relation, fun x => ?_⟩
  rw [← h.excess x, LinearExpr.eval_eq, LinearExpr.eval_eq]
  change c.expr.weight x + 0 - (c.rhs - c.expr.const) = c.expr.weight x + c.expr.const - c.rhs
  ring

/-- Where the excess depends on the assignment, there are columns. -/
theorem isConst_eq_false (h : c.States operation clause) {x y : Var → Rat}
    (hne : clause.excess (operation x) ≠ clause.excess (operation y)) :
    c.expr.isConst = false := by
  refine LinearExpr.isConst_eq_false_of_eval_ne (x := x) (y := y) fun he => hne ?_
  rw [← h.excess x, ← h.excess y, he]

end States

theorem states_rowsOver {operation : (Var → Rat) → Operation} {steps : Nat} {subject : Subject}
    {name : String} {relation : Relation} {excess : Nat → Operation → Rat}
    {lhs : Nat → LinearExpr Rat}
    (h : ∀ t < steps, ∀ x, (lhs t).eval x = excess t (operation x)) :
    List.Forall₂ (fun clause c => c.States operation clause)
      (Clause.overSteps steps subject name relation excess) (rowsOver steps name relation lhs) := by
  unfold Clause.overSteps rowsOver
  rw [List.forall₂_map_left_iff, List.forall₂_map_right_iff, List.forall₂_same]
  intro t ht
  refine ⟨rfl, rfl, fun x => ?_⟩
  exact (sub_zero _).trans (h t (List.mem_range.1 ht) x)

end Constraint

namespace Node

theorem key_of_proportionGroup {n : Node Rat} {catalogue : Catalogue Rat} {side : Direction}
    {streams : List (Stream Rat)} {byCommodity : Bool} {key : String} {ratio : Quantity Rat}
    {g : ProportionGroup Rat}
    (h : n.proportionGroup catalogue side streams byCommodity key ratio = .ok g) : g.key = key := by
  unfold proportionGroup at h
  dsimp only at h
  split at h
  · exact absurd h (by simp)
  · obtain ⟨unit, -, h⟩ := bind_eq_ok_iff.1 h
    obtain ⟨value, -, h⟩ := bind_eq_ok_iff.1 h
    split at h
    · rw [← Except.ok.inj h]
    · exact absurd h (throw_ne_ok _ _)

/-- The conditions of proportions state one clause for each share but the first, whatever the flows
are called. -/
theorem states_proportionRows {n : Node Rat} {catalogue : Catalogue Rat} {steps : Nat}
    {side : Direction} {streams : List (Stream Rat)} {operation : (Var → Rat) → Operation}
    {flow : Operation → Nat → Label → Rat} {ratios : Option (Keyed (Quantity Rat))}
    {rows : Rows Rat} (hr : n.proportionRows catalogue steps side streams ratios = .ok rows)
    (hflow : ∀ x, ∀ t < steps, ∀ s ∈ streams,
      (s.flow.atStep t).eval x = flow (operation x) t s.label) :
    List.Forall₂ (fun clause d => d.States operation clause)
      (ratios.elim []
        (n.proportionClauses catalogue steps side (streams.map Stream.label) flow)) rows := by
  unfold proportionRows at hr
  cases ratios with
  | none =>
    rw [← Except.ok.inj hr]
    exact .nil
  | some ratios =>
    obtain ⟨groups, hgroups, hr⟩ := bind_eq_ok_iff.1 hr
    have hgroups := mapM_eq_ok_iff.1 hgroups
    unfold proportionClauses
    dsimp only [Option.elim]
    generalize ratios.entries = entries at hgroups ⊢
    cases hgroups with
    | nil =>
      rw [← Except.ok.inj hr]
      exact .nil
    | cons hfirst hothers =>
      rw [← Except.ok.inj hr]
      refine List.rel_flatMap hothers fun e g hg => ?_
      rw [key_of_proportionGroup hg]
      refine Constraint.states_rowsOver fun t ht x => ?_
      have hshare : ∀ {e : String × Quantity Rat} {g : ProportionGroup Rat},
          n.proportionGroup catalogue side streams
              (ratios.keys = distinct (streams.map (·.commodity))) e.1 e.2 = .ok g →
            (g.shareAt t).eval x = Label.shareOf catalogue (streams.map Stream.label) ratios
              (flow (operation x) t) e := fun hg => eval_shareAt (hflow x) hg ht
      rw [LinearExpr.eval_sub, hshare hfirst, hshare hg]

section Rows

variable {nodes : List (Node Rat)} {catalogue : Catalogue Rat} {n : Node Rat}
variable {c : NodeCommodities} {f : NodeFlows Rat} {steps : Nat} {hours : Rat} {rows : Rows Rat}
variable (hnames : ((variableKeys nodes).map (·.name)).Nodup) (hn : n ∈ nodes)
variable (h : n.Bound catalogue (outlets nodes n.name) (registry nodes steps) c f)

include hnames hn h

theorem states_balanceRows {output : String}
    (hr : n.balanceRows catalogue steps hours f (distinct (f.outflows.map (·.commodity))) output =
      .ok rows) :
    List.Forall₂ (fun clause d => d.States (n.operation catalogue (registry nodes steps)) clause)
      (n.balanceClauses nodes catalogue hours steps output) rows := by
  rw [map_commodity_outflows h] at hr
  obtain ⟨inputs, factor, hconv, rfl⟩ := balanceRows_eq_ok_iff.1 hr
  refine Constraint.states_rowsOver fun t ht x => ?_
  rw [eval_balanceAt x hnames ht hn h hconv, totalOf_outflowsAt, totalOf_inflowsAt,
    mul_comm (Label.total _ _ _)]
  rfl

theorem states_storageRows {s : Storage Rat} (hstorage : n.storage = some s) :
    List.Forall₂ (fun clause d => d.States (n.operation catalogue (registry nodes steps)) clause)
      (n.storageClauses hours steps s) (n.storageRows steps hours f) := by
  have hsome : n.storage.isSome = true := by rw [hstorage]; rfl
  obtain ⟨-, hlevel, hcharge, hdischarge⟩ := stored_mem_variableKeys hn hsome
  have hf : f.storage = some ((registry nodes steps).storageOf n.name) := by
    rw [h.storage, storageIn, if_pos hsome]
  unfold storageClauses storageRows
  rw [hstorage, hf]
  refine List.rel_flatMap (R := fun t u => t = u ∧ t < steps)
    (List.forall₂_same.2 fun t ht => ⟨rfl, List.mem_range.1 ht⟩) ?_
  rintro t _ ⟨rfl, ht⟩
  have hprevious : (t + steps - 1) % steps < steps := Nat.mod_lt _ (by omega)
  simp only [List.forall₂_cons, List.forall₂_nil_left_iff, and_true]
  refine ⟨⟨rfl, rfl, fun x => ?_⟩, ⟨rfl, rfl, fun x => ?_⟩, ⟨rfl, rfl, fun x => ?_⟩, rfl, rfl,
    fun x => ?_⟩
  · change (_ - LinearExpr.term _ _ : LinearExpr Rat).eval x - 0 = _
    rw [LinearExpr.eval_sub, LinearExpr.eval_term, sub_zero]
    exact congrArg (· - _) (eval_varAt x hnames ht hcharge rfl)
  · change (_ - LinearExpr.term _ _ : LinearExpr Rat).eval x - 0 = _
    rw [LinearExpr.eval_sub, LinearExpr.eval_term, sub_zero]
    exact congrArg (· - _) (eval_varAt x hnames ht hdischarge rfl)
  · change (_ - LinearExpr.ofVar _ : LinearExpr Rat).eval x - 0 = _
    rw [LinearExpr.eval_sub, LinearExpr.eval_ofVar, sub_zero]
    exact congrArg (· - _) (eval_varAt x hnames ht hlevel rfl)
  · simp only [LinearExpr.eval_sub, LinearExpr.eval_add, Model.storageOf,
      eval_varAt x hnames ht hlevel rfl, eval_varAt x hnames ht hdischarge rfl,
      eval_termAt hnames hlevel rfl hprevious, eval_termAt hnames hcharge rfl ht, sub_zero]
    rfl

theorem states_inputRows
    (hr : n.proportionRows catalogue steps .input f.inflows n.inputProportions = .ok rows) :
    List.Forall₂ (fun clause d => d.States (n.operation catalogue (registry nodes steps)) clause)
      (n.inputProportions.elim [] (n.proportionClauses catalogue steps .input (inLabels nodes n)
        Operation.inflow)) rows := by
  rw [← label_inflows h]
  exact states_proportionRows hr fun x t ht => eval_inflow hnames hn h ht

theorem states_outputRows
    (hr : n.proportionRows catalogue steps .output f.outflows n.outputProportions = .ok rows) :
    List.Forall₂ (fun clause d => d.States (n.operation catalogue (registry nodes steps)) clause)
      (n.outputProportions.elim [] (n.proportionClauses catalogue steps .output (outLabels nodes n)
        Operation.outflow)) rows := by
  rw [← label_outflows h]
  exact states_proportionRows hr fun x t ht => eval_outflow hnames hn h ht

theorem states_sizeRows (hr : n.sizeRows steps hours f = .ok rows) :
    List.Forall₂ (fun clause d => d.States (n.operation catalogue (registry nodes steps)) clause)
      (n.sizeClauses nodes hours steps) rows := by
  unfold sizeRows at hr
  rw [h.size, h.sizeCommodity, sizeIn] at hr
  unfold sizeClauses
  by_cases hsize : n.hasSize = true
  · rw [if_pos hsize, size_eq_sizeName h.settled (by rw [hsize, Bool.true_or])] at hr
    by_cases hk : n.kind = .scalableInput
    · simp only [if_pos hk, Except.ok.injEq] at hr
      rw [← hr, if_neg fun hboth => hboth.2 hk]
      exact .nil
    · simp only [if_neg hk, Except.ok.injEq] at hr
      rw [← hr, if_pos ⟨hsize, hk⟩]
      refine Constraint.states_rowsOver fun t ht x => ?_
      rw [eval_excessAt hnames hn h x ht, totalOf_outflowsAt]
      rfl
  · simp only [if_neg hsize, Except.ok.injEq] at hr
    rw [← hr, if_neg fun hboth => hsize hboth.1]
    exact .nil

/-- The conditions of a node state its clauses, one after the other. -/
theorem states_rows {groups : List (Rows Rat)}
    (hrows : n.rows catalogue steps hours f = groups.map .ok) :
    List.Forall₂ (fun clause d => d.States (n.operation catalogue (registry nodes steps)) clause)
      (n.clauses nodes catalogue hours steps) groups.flatten := by
  unfold Node.rows at hrows
  dsimp only at hrows
  obtain ⟨balances, others, rfl, hbalances, hothers⟩ := List.append_eq_map_iff.1 hrows
  obtain ⟨storage, others, rfl, hstorage, hothers⟩ := List.map_eq_cons_iff.1 hothers
  obtain ⟨inputs, others, rfl, hinputs, hothers⟩ := List.map_eq_cons_iff.1 hothers
  obtain ⟨outputs, others, rfl, houtputs, hothers⟩ := List.map_eq_cons_iff.1 hothers
  obtain ⟨sizes, others, rfl, hsizes, hothers⟩ := List.map_eq_cons_iff.1 hothers
  obtain rfl := List.map_eq_nil_iff.1 hothers
  unfold clauses
  simp only [List.flatten_append, List.flatten_cons, List.flatten_nil, List.append_nil]
  refine List.rel_append ?_ (List.rel_append ?_ (List.rel_append (states_inputRows hnames hn h
    hinputs.symm) (List.rel_append (states_outputRows hnames hn h houtputs.symm)
      (states_sizeRows hnames hn h hsizes.symm))))
  · have hmade : List.Forall₂ (fun output rows => n.balanceRows catalogue steps hours f
        (distinct (f.outflows.map (·.commodity))) output = .ok rows)
        (distinct (f.outflows.map (·.commodity))) balances := forall₂_of_map_eq hbalances.symm
    rw [List.flatMap_def, ← map_commodity_outflows h]
    refine List.rel_flatten (List.forall₂_map_left_iff.2 (hmade.imp fun output rows hr => ?_))
    exact states_balanceRows hnames hn h hr
  · rw [Except.ok.inj hstorage]
    cases hs : n.storage with
    | none => simp [storageRows, hs]
    | some s => exact states_storageRows hnames hn h hs

end Rows

end Node

end SupplyNet
