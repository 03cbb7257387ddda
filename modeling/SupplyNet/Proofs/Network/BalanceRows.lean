import Mathlib
import SupplyNet.Proofs.Network.Balance
import SupplyNet.Proofs.Node.Built

/-!
The balance conditions of a network. None of them is without columns, so all are stored, and they
are the only ones of their name.
-/
set_option autoImplicit false

namespace SupplyNet

/-- The assignment that is one at a column and zero elsewhere. -/
def unitAt (v w : Var) : Rat := if w = v then 1 else 0

namespace Node

/-! ## The columns of the flows of a node -/

section Keys

variable (nodes : List (Node Rat)) (catalogue : Catalogue Rat) (m : Model Rat) (x : Var → Rat)

/-- The variables that flow out of a node, unless its flow is given. -/
def outKeys (n : Node Rat) : List (String × VariableKey) :=
  match outlets nodes n.name with
  | [] => [(n.leafOutputName, .outflow n.name)]
  | served => served.map fun o => (o.commodity, .edge n.name o.target)

/-- The variables that flow into a node that is not an input. -/
def inKeys (n : Node Rat) : List (String × VariableKey) :=
  match n.inlets with
  | [] => [(leafInputName nodes n, .inflow n.name)]
  | inlets => inlets.map fun i => (i.commodity, .edge i.source n.name)

variable {n : Node Rat}

theorem outflowsAt_eq (hk : n.kind ≠ .fixedOutput) (t : Nat) :
    outflowsAt nodes catalogue m x n t =
      (outKeys nodes n).map fun q => (q.1, x (m.columnOf q.2 t)) := by
  have hleaf : ∀ commodity, n.leafOutflowAt catalogue m x commodity t =
      x (m.columnOf (.outflow n.name) t) := by
    intro commodity
    unfold leafOutflowAt
    split
    · next inputs flow hr => exact absurd (by rw [kind, hr]; rfl) hk
    · rfl
  unfold outflowsAt outKeys
  cases outlets nodes n.name with
  | nil => simp only [hleaf, List.map_cons, List.map_nil]
  | cons o r => simp only [List.map_map, Function.comp_def]

theorem inflowsAt_eq (hk : ¬n.kind.isInput) (t : Nat) :
    inflowsAt nodes catalogue m x n t =
      (inKeys nodes n).map fun q => (q.1, x (m.columnOf q.2 t)) := by
  have hleaf : ∀ commodity, n.leafInflowAt catalogue m x commodity t =
      x (m.columnOf (.inflow n.name) t) := by
    intro commodity
    unfold leafInflowAt
    split
    · next flow hr => exact absurd (by rw [kind, hr]; rfl) hk
    · next factors hr => exact absurd (by rw [kind, hr]; rfl) hk
    · rfl
  unfold inflowsAt inKeys
  cases n.inlets with
  | nil => simp only [hleaf, List.map_cons, List.map_nil]
  | cons i r => simp only [List.map_map, Function.comp_def]

end Keys

section Disjoint

variable {nodes : List (Node Rat)} {n : Node Rat}

theorem mem_outKeys {q : String × VariableKey} (h : q ∈ outKeys nodes n) :
    q.2 = .outflow n.name ∧ outlets nodes n.name = [] ∨
      ∃ o ∈ outlets nodes n.name, q.2 = .edge n.name o.target := by
  unfold outKeys at h
  split at h
  · next hs =>
    rw [List.mem_singleton.1 h]
    exact Or.inl ⟨rfl, hs⟩
  · obtain ⟨o, ho, rfl⟩ := List.mem_map.1 h
    exact Or.inr ⟨o, ho, rfl⟩

theorem mem_inKeys {q : String × VariableKey} (h : q ∈ inKeys nodes n) :
    q.2 = .inflow n.name ∧ n.inlets = [] ∨
      ∃ i ∈ n.inlets, q.2 = .edge i.source n.name := by
  unfold inKeys at h
  split at h
  · next hi =>
    rw [List.mem_singleton.1 h]
    exact Or.inl ⟨rfl, hi⟩
  · obtain ⟨i, hi, rfl⟩ := List.mem_map.1 h
    exact Or.inr ⟨i, hi, rfl⟩

theorem steps_outKeys {q : String × VariableKey} (h : q ∈ outKeys nodes n) (steps : Nat) :
    q.2.steps? steps = some steps := by
  rcases mem_outKeys h with ⟨he, -⟩ | ⟨o, -, he⟩ <;> rw [he] <;> rfl

theorem steps_inKeys {q : String × VariableKey} (h : q ∈ inKeys nodes n) (steps : Nat) :
    q.2.steps? steps = some steps := by
  rcases mem_inKeys h with ⟨he, -⟩ | ⟨o, -, he⟩ <;> rw [he] <;> rfl

theorem outKeys_mem_variableKeys (hn : n ∈ nodes) (hk : n.kind ≠ .fixedOutput)
    {q : String × VariableKey} (h : q ∈ outKeys nodes n) : q.2 ∈ variableKeys nodes := by
  rcases mem_outKeys h with ⟨he, hs⟩ | ⟨o, ho, he⟩
  · rw [he]
    exact mem_variableKeys_outflow hn hk hs
  · rw [he]
    exact mem_variableKeys_outlet ho

theorem inKeys_mem_variableKeys (hn : n ∈ nodes) (hk : ¬n.kind.isInput)
    {q : String × VariableKey} (h : q ∈ inKeys nodes n) : q.2 ∈ variableKeys nodes := by
  rcases mem_inKeys h with ⟨he, hi⟩ | ⟨i, hi, he⟩
  · rw [he]
    exact mem_variableKeys_inflow hn hk hi
  · rw [he]
    exact mem_variableKeys_edge hn hi

/-- No flow that leaves a node enters it, as a node does not feed itself. -/
theorem outKeys_ne_inKeys (hself : n.name ∉ n.inputs) {q r : String × VariableKey}
    (hq : q ∈ outKeys nodes n) (hr : r ∈ inKeys nodes n) : q.2 ≠ r.2 := by
  rcases mem_outKeys hq with ⟨ho, -⟩ | ⟨o, -, ho⟩ <;>
    rcases mem_inKeys hr with ⟨hi, -⟩ | ⟨i, him, hi⟩ <;> rw [ho, hi] <;> intro h
  · exact VariableKey.noConfusion h
  · exact VariableKey.noConfusion h
  · exact VariableKey.noConfusion h
  · obtain ⟨hsource, -⟩ := VariableKey.edge.inj h
    exact hself (hsource ▸ List.mem_map_of_mem him)

theorem exists_outKeys {output : String} (h : output ∈ outputNames nodes n) :
    ∃ q ∈ outKeys nodes n, q.1 = output := by
  have hfst : (outKeys nodes n).map Prod.fst = outputNames nodes n := by
    unfold outKeys outputNames
    cases outlets nodes n.name with
    | nil => rfl
    | cons o r => simp only [List.map_map, Function.comp_def]
  rw [← hfst] at h
  exact List.mem_map.1 h

/-- Something flows into a node. -/
theorem exists_inKeys (nodes : List (Node Rat)) (n : Node Rat) : ∃ q, q ∈ inKeys nodes n := by
  unfold inKeys
  cases n.inlets with
  | nil => exact ⟨_, List.mem_singleton.2 rfl⟩
  | cons i r => exact ⟨_, List.mem_cons_self⟩

end Disjoint

/-! ## Balance conditions have columns -/

section Total

variable {p : String → Bool} {l : List (String × VariableKey)} {c : VariableKey → Var} {v : Var}

theorem one_le_totalOf_unitAt {q : String × VariableKey} (hq : q ∈ l) (hp : p q.1 = true)
    (h : c q.2 = v) : 1 ≤ totalOf p (l.map fun q => (q.1, unitAt v (c q.2))) := by
  rw [totalOf_map]
  have hone : unitAt v (c q.2) = 1 := if_pos h
  rw [← hone]
  refine List.single_le_sum ?_ _ (List.mem_map_of_mem (List.mem_filter.2 ⟨hq, hp⟩))
  intro r hr
  obtain ⟨q, -, rfl⟩ := List.mem_map.1 hr
  unfold unitAt
  split <;> simp

theorem totalOf_zero : totalOf p (l.map fun q => (q.1, (0 : Rat))) = 0 := by
  rw [totalOf_map]
  apply List.sum_eq_zero
  intro r hr
  obtain ⟨q, -, rfl⟩ := List.mem_map.1 hr
  rfl

end Total

section NotConst

variable {nodes : List (Node Rat)} {catalogue : Catalogue Rat} {m : Model Rat} {x y : Var → Rat}
variable {n : Node Rat} {t : Nat}

/-- The input flows depend on the columns that flow in, and on the size of a scalable input. -/
theorem inflowsAt_congr
    (h : ¬n.kind.isInput → ∀ q ∈ inKeys nodes n, x (m.columnOf q.2 t) = y (m.columnOf q.2 t))
    (hs : n.hasSize = true → x (m.scalarOf (.size n.name)) = y (m.scalarOf (.size n.name))) :
    inflowsAt nodes catalogue m x n t = inflowsAt nodes catalogue m y n t := by
  by_cases hk : n.kind.isInput
  · unfold inflowsAt leafInflowAt
    rw [inlets_of_isInput hk]
    dsimp only
    rcases role_of_isInput hk with ⟨flow, hr⟩ | ⟨factors, hr⟩
    · rw [hr]
    · rw [hr, hs (by simp [hasSize, kind, hr, Role.kind])]
  · rw [inflowsAt_eq nodes catalogue m x hk, inflowsAt_eq nodes catalogue m y hk]
    apply List.map_congr_left
    intro q hq
    rw [h hk q hq]

/-- Nothing but the profile flows out of a fixed output. -/
theorem outflowsAt_of_fixedOutput (hk : n.kind = .fixedOutput) (hs : outlets nodes n.name = []) :
    outflowsAt nodes catalogue m x n t = outflowsAt nodes catalogue m y n t := by
  obtain ⟨inputs, flow, hr⟩ := role_of_fixedOutput hk
  unfold outflowsAt leafOutflowAt
  rw [hs, hr]

theorem storedAt_congr {hours : Rat} (h : n.storage.isSome = true →
      x (m.columnOf (.charge n.name) t) = y (m.columnOf (.charge n.name) t) ∧
        x (m.columnOf (.discharge n.name) t) = y (m.columnOf (.discharge n.name) t)) :
    storedAt m x hours n t = storedAt m y hours n t := by
  unfold storedAt
  split
  · next hst => rw [(h hst).1, (h hst).2]
  · rfl

end NotConst

section Stored

variable {nodes : List (Node Rat)} {catalogue : Catalogue Rat} {hours : Rat} {n : Node Rat}
variable {c : NodeCommodities} {f : NodeFlows Rat} {steps : Nat} {t : Nat}
variable (hnames : ((variableKeys nodes).map (·.name)).Nodup) (ht : t < steps) (hn : n ∈ nodes)

include hnames ht hn

/-- A flow of a node is no column of its storage. -/
theorem storedAt_unitAt {k : VariableKey} (hk : k ∈ variableKeys nodes)
    (hs : k.steps? steps = some steps) (hcharge : k ≠ .charge n.name)
    (hdischarge : k ≠ .discharge n.name) :
    storedAt (registry nodes steps) (unitAt ((registry nodes steps).columnOf k t)) hours n t =
      storedAt (registry nodes steps) (fun _ => 0) hours n t := by
  have hcolumn : n.storage.isSome = true → ∀ k' ∈ n.storageKeys, k'.steps? steps = some steps →
      k ≠ k' → unitAt ((registry nodes steps).columnOf k t)
        ((registry nodes steps).columnOf k' t) = 0 := fun hst k' hk' hs' hne =>
    if_neg fun he => hne ((columnOf_eq_iff hnames (mem_variableKeys_storage hn hst k' hk') hs'
      hk hs ht).1 he).symm
  exact storedAt_congr fun hst =>
    ⟨hcolumn hst (.charge n.name) (by simp [storageKeys]) rfl hcharge,
      hcolumn hst (.discharge n.name) (by simp [storageKeys]) rfl hdischarge⟩

variable (h : n.Bound catalogue (outlets nodes n.name) (registry nodes steps) c f)
variable (hbuilt : n.Built)

include h hbuilt

/-- If the flows out of a node are variables, each of them counts in its balance. -/
theorem isConst_balanceAt_of_outflow (hk : n.kind ≠ .fixedOutput) {output : String}
    (ho : output ∈ outputNames nodes n) {inputs : List (Flow Rat)} {factor : Rat}
    (hc : n.conversion catalogue f output = .ok (inputs, factor)) :
    (balanceAt hours f output inputs factor t).isConst = false := by
  obtain ⟨q, hq, hqo⟩ := exists_outKeys ho
  have hqk := outKeys_mem_variableKeys hn hk hq
  have hqs := steps_outKeys hq steps
  have hin : inflowsAt nodes catalogue (registry nodes steps)
      (unitAt ((registry nodes steps).columnOf q.2 t)) n t =
      inflowsAt nodes catalogue (registry nodes steps) (fun _ => 0) n t := by
    refine inflowsAt_congr (fun hi r hr => if_neg fun he => ?_) fun hsize => if_neg fun he => ?_
    · exact outKeys_ne_inKeys hbuilt.inputs_nodup.1 hq hr ((columnOf_eq_iff hnames
        (inKeys_mem_variableKeys hn hi hr) (steps_inKeys hr steps) hqk hqs ht).1 he).symm
    · exact scalarOf_ne_columnOf hnames (mem_variableKeys_size hn hsize) rfl hqk hqs ht he
  have hstored : storedAt (registry nodes steps)
      (unitAt ((registry nodes steps).columnOf q.2 t)) hours n t =
      storedAt (registry nodes steps) (fun _ => 0) hours n t := by
    refine storedAt_unitAt hnames ht hn hqk hqs ?_ ?_ <;>
      rcases mem_outKeys hq with ⟨he, -⟩ | ⟨o, -, he⟩ <;> rw [he] <;> exact VariableKey.noConfusion
  apply LinearExpr.isConst_eq_false_of_eval_ne
    (x := unitAt ((registry nodes steps).columnOf q.2 t)) (y := fun _ => 0)
  rw [eval_balanceAt _ hnames ht hn h hc, eval_balanceAt _ hnames ht hn h hc, hin, hstored,
    outflowsAt_eq _ _ _ _ hk, outflowsAt_eq _ _ _ _ hk, totalOf_zero]
  have hone := one_le_totalOf_unitAt (p := (· = output))
    (c := fun k => (registry nodes steps).columnOf k t) hq (by simpa using hqo) rfl
  intro he
  linarith

/-- If the flow out of a node is given, each flow into it counts in its balance. -/
theorem isConst_balanceAt_of_inflow (hk : n.kind = .fixedOutput)
    (hserved : outlets nodes n.name = []) {output : String} {inputs : List (Flow Rat)}
    {factor : Rat} (hc : n.conversion catalogue f output = .ok (inputs, factor)) :
    (balanceAt hours f output inputs factor t).isConst = false := by
  obtain ⟨hfactor, hconv, -⟩ := hbuilt.of_fixedOutput hk
  have hi : ¬n.kind.isInput := by
    rw [hk]
    decide
  obtain ⟨q, hq⟩ := exists_inKeys nodes n
  have hqk := inKeys_mem_variableKeys hn hi hq
  have hqs := steps_inKeys hq steps
  have hone : factorTo nodes catalogue n output = 1 := factorTo_of_plain_one hconv hfactor output
  have hall : n.madeFrom output = fun _ => true := by
    unfold madeFrom
    rw [hconv]
  have hstored : storedAt (registry nodes steps)
      (unitAt ((registry nodes steps).columnOf q.2 t)) hours n t =
      storedAt (registry nodes steps) (fun _ => 0) hours n t := by
    refine storedAt_unitAt hnames ht hn hqk hqs ?_ ?_ <;>
      rcases mem_inKeys hq with ⟨he, -⟩ | ⟨o, -, he⟩ <;> rw [he] <;> exact VariableKey.noConfusion
  apply LinearExpr.isConst_eq_false_of_eval_ne
    (x := unitAt ((registry nodes steps).columnOf q.2 t)) (y := fun _ => 0)
  rw [eval_balanceAt _ hnames ht hn h hc, eval_balanceAt _ hnames ht hn h hc, hstored, hone, hall,
    outflowsAt_of_fixedOutput (y := fun _ => 0) hk hserved, inflowsAt_eq _ _ _ _ hi,
    inflowsAt_eq _ _ _ _ hi, totalOf_zero]
  have hpos := one_le_totalOf_unitAt (p := fun _ => true)
    (c := fun k => (registry nodes steps).columnOf k t) hq rfl rfl
  intro he
  linarith

end Stored

/-- The balance of each output has columns. -/
theorem isConst_balanceAt_of_wired {nodes : List (Node Rat)} {catalogue : Catalogue Rat}
    {hours : Rat} {n : Node Rat} {c : NodeCommodities} {f : NodeFlows Rat} {steps : Nat}
    (hw : Wired nodes) (hnames : ((variableKeys nodes).map (·.name)).Nodup) (hn : n ∈ nodes)
    (hbuilt : n.Built)
    (h : n.Bound catalogue (outlets nodes n.name) (registry nodes steps) c f) {output : String}
    (ho : output ∈ outputNames nodes n) {inputs : List (Flow Rat)} {factor : Rat}
    (hc : n.conversion catalogue f output = .ok (inputs, factor)) {t : Nat} (ht : t < steps) :
    (balanceAt hours f output inputs factor t).isConst = false := by
  by_cases hk : n.kind = .fixedOutput
  · refine isConst_balanceAt_of_inflow hnames ht hn h hbuilt hk ?_ hc
    by_contra hs
    exact hw.not_isOutput_of_served hn hs (by rw [hk]; decide)
  · exact isConst_balanceAt_of_outflow hnames ht hn h hbuilt hk ho hc

/-- If all conditions of a network are made, the balance of each output is one with columns. -/
theorem isConst_balanceAt {nodes : List (Node Rat)} {grid : Grid} {config : Config Rat}
    {cs : List NodeCommodities} {groups : List (Rows Rat)} {net : Network Rat}
    (hcompiled : Compiled nodes grid config cs groups net) {n : Node Rat} {c : NodeCommodities}
    {f : NodeFlows Rat} (hn : n ∈ nodes) (hbuilt : n.Built)
    (h : n.Bound config.catalogue (outlets nodes n.name) (registry nodes grid.size) c f)
    {output : String} (ho : output ∈ outputNames nodes n) {inputs : List (Flow Rat)} {factor : Rat}
    (hc : n.conversion config.catalogue f output = .ok (inputs, factor)) {t : Nat}
    (ht : t < grid.size) : (balanceAt grid.hours f output inputs factor t).isConst = false :=
  isConst_balanceAt_of_wired hcompiled.wired hcompiled.names_nodup hn hbuilt h ho hc ht

end Node

/-! ## The names of conditions -/

def balancePrefix : List Char := "inout_flow_balance_".toList

def Constraint.IsBalance {K : Type} (c : Constraint K) : Prop := balancePrefix <+: c.name.toList

section Names

variable {K : Type} [Scalar K]

omit [Scalar K] in
theorem not_isBalance_of_head {c : Constraint K} {a : Char} {r : List Char}
    (h : c.name.toList = a :: r) (ha : a ≠ 'i') : ¬c.IsBalance := by
  rintro ⟨r', he⟩
  rw [h] at he
  exact ha (List.cons.inj he).1.symm

theorem mem_rowsOver {steps : Nat} {name : String} {relation : Relation}
    {lhs : Nat → LinearExpr K} {c : Constraint K} :
    c ∈ rowsOver steps name relation lhs ↔
      ∃ t < steps, c = ⟨s!"{name}[{t}]", lhs t, relation, 0⟩ := by
  unfold rowsOver
  simp [eq_comm]

namespace Node

variable {n : Node K} {catalogue : Catalogue K} {steps : Nat} {hours : K} {f : NodeFlows K}

theorem isBalance_of_balanceName (outputs : List String) (output : String) (t : Nat)
    (lhs : LinearExpr K) (relation : Relation) (rhs : K) :
    (⟨s!"{n.balanceName outputs output}[{t}]", lhs, relation, rhs⟩ : Constraint K).IsBalance := by
  unfold balanceName Constraint.IsBalance
  split
  · simp only [toString, String.toList_append, List.append_assoc]
    exact List.prefix_append _ _
  · simp only [toString, String.toList_append, List.append_assoc]
    exact List.prefix_append _ _

theorem not_isBalance_storageRows {c : Constraint K} (h : c ∈ n.storageRows steps hours f) :
    ¬c.IsBalance := by
  unfold storageRows at h
  split at h
  · obtain ⟨t, -, h⟩ := List.mem_flatMap.1 h
    simp only [List.mem_cons, List.not_mem_nil, or_false] at h
    rcases h with rfl | rfl | rfl | rfl
    · exact not_isBalance_of_head
        (by simp only [toString, String.toList_append, List.append_assoc]; rfl) (by decide)
    · exact not_isBalance_of_head
        (by simp only [toString, String.toList_append, List.append_assoc]; rfl) (by decide)
    · exact not_isBalance_of_head
        (by simp only [toString, String.toList_append, List.append_assoc]; rfl) (by decide)
    · exact not_isBalance_of_head
        (by simp only [toString, String.toList_append, List.append_assoc]; rfl) (by decide)
  · exact absurd h List.not_mem_nil

theorem not_isBalance_proportionRows {side : Direction} {streams : List (Stream K)}
    {ratios : Option (Keyed (Quantity K))} {rows : Rows K} {c : Constraint K}
    (h : n.proportionRows catalogue steps side streams ratios = .ok rows) (hc : c ∈ rows) :
    ¬c.IsBalance := by
  unfold proportionRows at h
  split at h
  · rw [← Except.ok.inj h] at hc
    exact absurd hc List.not_mem_nil
  · obtain ⟨groups, -, h⟩ := bind_eq_ok_iff.1 h
    split at h
    · rw [← Except.ok.inj h] at hc
      exact absurd hc List.not_mem_nil
    · rw [← Except.ok.inj h] at hc
      obtain ⟨g, -, hc⟩ := List.mem_flatMap.1 hc
      obtain ⟨t, -, rfl⟩ := mem_rowsOver.1 hc
      exact not_isBalance_of_head
        (by simp only [toString, String.toList_append, List.append_assoc]; rfl) (by decide)

theorem not_isBalance_sizeRows {rows : Rows K} {c : Constraint K}
    (h : n.sizeRows steps hours f = .ok rows) (hc : c ∈ rows) : ¬c.IsBalance := by
  unfold sizeRows at h
  split at h
  · rw [← Except.ok.inj h] at hc
    exact absurd hc List.not_mem_nil
  · split at h
    · rw [← Except.ok.inj h] at hc
      exact absurd hc List.not_mem_nil
    · split at h
      · exact absurd h (by simp)
      · rw [← Except.ok.inj h] at hc
        obtain ⟨t, -, rfl⟩ := mem_rowsOver.1 hc
        exact not_isBalance_of_head
          (by simp only [toString, String.toList_append, List.append_assoc]; rfl) (by decide)

theorem balanceRows_eq_ok_iff {outputs : List String} {output : String} {rows : Rows K} :
    n.balanceRows catalogue steps hours f outputs output = .ok rows ↔
      ∃ inputs factor, n.conversion catalogue f output = .ok (inputs, factor) ∧
        rows = rowsOver steps (n.balanceName outputs output) .eq
          (balanceAt hours f output inputs factor) := by
  unfold balanceRows
  rw [bind_eq_ok_iff]
  constructor
  · rintro ⟨⟨inputs, factor⟩, hc, h⟩
    exact ⟨inputs, factor, hc, (Except.ok.inj h).symm⟩
  · rintro ⟨inputs, factor, hc, rfl⟩
    exact ⟨(inputs, factor), hc, rfl⟩

/-- Of the conditions of a node, those of its outputs are the balance conditions. -/
theorem exists_output_of_isBalance {rows : Rows K} {c : Constraint K}
    (h : .ok rows ∈ n.rows catalogue steps hours f) (hc : c ∈ rows) (hb : c.IsBalance) :
    ∃ output ∈ f.outflows.map (·.commodity), n.balanceRows catalogue steps hours f
      (distinct (f.outflows.map (·.commodity))) output = .ok rows := by
  unfold Node.rows at h
  rcases List.mem_append.1 h with h | h
  · obtain ⟨output, ho, h⟩ := List.mem_map.1 h
    exact ⟨output, mem_distinct.1 ho, h⟩
  · simp only [List.mem_cons, List.not_mem_nil, or_false] at h
    rcases h with h | h | h | h
    · rw [Except.ok.inj h] at hc
      exact absurd hb (not_isBalance_storageRows hc)
    · exact absurd hb (not_isBalance_proportionRows h.symm hc)
    · exact absurd hb (not_isBalance_proportionRows h.symm hc)
    · exact absurd hb (not_isBalance_sizeRows h.symm hc)

end Node

end Names

/-! ## The balance of a network -/

namespace Compiled

variable {nodes : List (Node Rat)} {grid : Grid} {config : Config Rat} {cs : List NodeCommodities}
variable {groups : List (Rows Rat)} {net : Network Rat}

theorem mem_constraints (h : Compiled nodes grid config cs groups net) {c : Constraint Rat} :
    c ∈ net.model.constraints ↔ ∃ n f rows, (n, f) ∈ nodes.zip net.flows ∧
      .ok rows ∈ n.rows config.catalogue grid.size grid.hours f ∧
      ∃ d ∈ rows, d.expr.isConst = false ∧ d.normalized = c := by
  rw [h.model]
  simp only [List.mem_toArray, Constraint.mem_stored, List.mem_flatten]
  have hrows : ∀ rows, rows ∈ groups ↔ ∃ n f, (n, f) ∈ nodes.zip net.flows ∧
      .ok rows ∈ n.rows config.catalogue grid.size grid.hours f := by
    intro rows
    have hmem : rows ∈ groups ↔ (.ok rows : Except (CompileError Rat) _) ∈ groups.map .ok := by
      simp
    rw [hmem, ← h.rows, List.mem_flatMap]
    constructor
    · rintro ⟨⟨n, f⟩, hp, hr⟩
      exact ⟨n, f, hp, hr⟩
    · rintro ⟨n, f, hp, hr⟩
      exact ⟨(n, f), hp, hr⟩
  constructor
  · rintro ⟨d, ⟨rows, hr, hd⟩, hconst, rfl⟩
    obtain ⟨n, f, hp, hr⟩ := (hrows rows).1 hr
    exact ⟨n, f, rows, hp, hr, d, hd, hconst, rfl⟩
  · rintro ⟨n, f, rows, hp, hr, d, hd, hconst, rfl⟩
    exact ⟨d, ⟨rows, (hrows rows).2 ⟨n, f, hp, hr⟩, hd⟩, hconst, rfl⟩

/-- All conditions of a node are made. -/
theorem exists_rows (h : Compiled nodes grid config cs groups net) {n : Node Rat}
    {f : NodeFlows Rat} (hp : (n, f) ∈ nodes.zip net.flows)
    {r : Except (CompileError Rat) (Rows Rat)}
    (hr : r ∈ n.rows config.catalogue grid.size grid.hours f) : ∃ rows, r = .ok rows := by
  have hmem : r ∈ groups.map .ok := by
    rw [← h.rows]
    exact List.mem_flatMap.2 ⟨(n, f), hp, hr⟩
  obtain ⟨rows, -, he⟩ := List.mem_map.1 hmem
  exact ⟨rows, he.symm⟩

end Compiled

/-- The balance conditions of a network hold exactly if each node is balanced, in every output
commodity and in every time step. The flow over an edge is one series of columns, which flows out of
one node and into the other. -/
theorem Network.balance_holds_iff {nodes : List (Node Rat)} {grid : Grid} {config : Config Rat}
    {net : Network Rat} (hbuilt : ∀ n ∈ nodes, n.Built)
    (h : Network.build nodes grid config = .ok net) (x : Var → Rat) :
    ((variableKeys nodes).map (·.name)).Nodup ∧
    (∀ k ∈ variableKeys nodes, net.model.Has grid.size k) ∧
    ((∀ c ∈ net.model.constraints, c.IsBalance → c.Holds x) ↔
      ∀ n ∈ nodes, ∀ output ∈ Node.outputNames nodes n, ∀ t < grid.size,
        n.Balanced nodes config.catalogue net.model x grid.hours output t) := by
  obtain ⟨cs, groups, hc⟩ := Network.build_eq_ok_iff.1 h
  have hnames := hc.names_nodup
  refine ⟨hnames, fun _ hk => hc.has hk, ?_⟩
  · have hmodel : ∀ (n : Node Rat) output t,
        n.Balanced nodes config.catalogue net.model x grid.hours output t ↔
          n.Balanced nodes config.catalogue (registry nodes grid.size) x grid.hours output t := by
      intro n output t
      rw [hc.model]
      rfl
    simp only [hmodel]
    constructor
    · intro hall n hn output ho t ht
      obtain ⟨f, hp⟩ := hc.exists_flows hn
      obtain ⟨c, hbound⟩ := hc.bound hp
      have hout := Node.map_commodity_outflows hbound
      have hrow : n.balanceRows config.catalogue grid.size grid.hours f
          (distinct (f.outflows.map (·.commodity))) output ∈
          n.rows config.catalogue grid.size grid.hours f := by
        refine List.mem_append_left _ (List.mem_map_of_mem ?_)
        rw [mem_distinct, hout]
        exact ho
      obtain ⟨rows, hr⟩ := hc.exists_rows hp hrow
      obtain ⟨inputs, factor, hconv, rfl⟩ := Node.balanceRows_eq_ok_iff.1 hr
      have hconst := Node.isConst_balanceAt hc hn (hbuilt n hn) hbound ho hconv ht
      have hstored := hc.mem_constraints.2
        ⟨n, f, _, hp, hr ▸ hrow, _, mem_rowsOver.2 ⟨t, ht, rfl⟩, hconst, rfl⟩
      have hholds := hall _ hstored (Node.isBalance_of_balanceName _ output t _ _ _)
      rw [Constraint.holds_normalized] at hholds
      exact (Node.balanced_iff x hnames ht hn hbound hconv grid.hours).2 hholds
    · intro hall c hmem hb
      obtain ⟨n, f, rows, hp, hr, d, hd, -, rfl⟩ := hc.mem_constraints.1 hmem
      have hn : n ∈ nodes := (List.of_mem_zip hp).1
      obtain ⟨c, hbound⟩ := hc.bound hp
      obtain ⟨output, ho, hbalance⟩ := Node.exists_output_of_isBalance hr hd hb
      obtain ⟨inputs, factor, hconv, rfl⟩ := Node.balanceRows_eq_ok_iff.1 hbalance
      obtain ⟨t, ht, rfl⟩ := mem_rowsOver.1 hd
      rw [Node.map_commodity_outflows hbound] at ho
      rw [Constraint.holds_normalized]
      exact (Node.balanced_iff x hnames ht hn hbound hconv grid.hours).1 (hall n hn output ho t ht)

theorem balance_of_windNetwork :
    ∃ net, Network.build (builtNodes windDrafts) windGrid .standard = .ok net ∧ ∀ x : Var → Rat,
      ((variableKeys (builtNodes windDrafts)).map (·.name)).Nodup ∧
      (∀ k ∈ variableKeys (builtNodes windDrafts), net.model.Has windGrid.size k) ∧
      ((∀ c ∈ net.model.constraints, c.IsBalance → c.Holds x) ↔
        ∀ n ∈ builtNodes windDrafts, ∀ output ∈ Node.outputNames (builtNodes windDrafts) n,
          ∀ t < windGrid.size, n.Balanced (builtNodes windDrafts) Config.standard.catalogue net.model
            x windGrid.hours output t) := by
  obtain ⟨net, h⟩ := exists_windNetwork
  exact ⟨net, h, Network.balance_holds_iff (fun _ hn => built_of_mem hn) h⟩

end SupplyNet
