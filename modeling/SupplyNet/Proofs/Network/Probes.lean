import Mathlib
import SupplyNet.Proofs.Network.Clauses

/-!
Probes. Under the assignment that is one at a single column and zero elsewhere, all flows and storage
values of a node vanish but one, so it can be seen which clauses depend on the column.
-/
set_option autoImplicit false

namespace SupplyNet

/-! ## Columns -/

section Columns

variable {nodes : List (Node Rat)} {steps : Nat}
variable (hnames : ((variableKeys nodes).map (·.name)).Nodup)

include hnames

theorem columnOf_eq_columnOf_iff {k k' : VariableKey} (hk : k ∈ variableKeys nodes)
    (hs : k.steps? steps = some steps) (hk' : k' ∈ variableKeys nodes)
    (hs' : k'.steps? steps = some steps) {t t' : Nat} (ht : t < steps) (ht' : t' < steps) :
    (registry nodes steps).columnOf k t = (registry nodes steps).columnOf k' t' ↔
      k = k' ∧ t = t' := by
  constructor
  · intro h
    have hplace := mem_places_columnOf hnames hk hs ht
    rw [h] at hplace
    obtain ⟨hname, hstep⟩ := Prod.mk.inj ((consistent_registry steps hnames).address_unique hplace
      (mem_places_columnOf hnames hk' hs' ht'))
    exact ⟨key_eq_of_name_eq hnames hk hk' hname, Option.some.inj hstep⟩
  · rintro ⟨rfl, rfl⟩
    rfl

/-- A probe of one column sees nothing at another one. -/
theorem unitAt_columnOf {k k' : VariableKey} (hk : k ∈ variableKeys nodes)
    (hs : k.steps? steps = some steps) (hk' : k' ∈ variableKeys nodes)
    (hs' : k'.steps? steps = some steps) {t t' : Nat} (ht : t < steps) (ht' : t' < steps) :
    unitAt ((registry nodes steps).columnOf k t) ((registry nodes steps).columnOf k' t') =
      if k' = k ∧ t' = t then 1 else 0 := by
  unfold unitAt
  exact if_congr (columnOf_eq_columnOf_iff hnames hk' hs' hk hs ht' ht) rfl rfl

theorem unitAt_scalarOf {k k' : VariableKey} (hk : k ∈ variableKeys nodes)
    (hs : k.steps? steps = some steps) (hk' : k' ∈ variableKeys nodes)
    (hs' : k'.steps? steps = none) {t : Nat} (ht : t < steps) :
    unitAt ((registry nodes steps).columnOf k t) ((registry nodes steps).scalarOf k') = 0 :=
  if_neg (scalarOf_ne_columnOf hnames hk' hs' hk hs ht)

end Columns

/-! ## Flows -/

namespace Node

/-- The variable of an input flow. -/
def inflowKey (n : Node Rat) (l : Label) : VariableKey :=
  match l.neighbour with
  | some source => .edge source n.name
  | none => .inflow n.name

/-- The variable of an output flow. -/
def outflowKey (n : Node Rat) (l : Label) : VariableKey :=
  match l.neighbour with
  | some target => .edge n.name target
  | none => .outflow n.name

section Flows

variable {nodes : List (Node Rat)} {catalogue : Catalogue Rat} {m : Model Rat} {x : Var → Rat}
variable {n : Node Rat} {steps t : Nat} {l l' : Label}

theorem inflowOf_eq (hk : ¬n.kind.isInput) :
    n.inflowOf catalogue m x t l = x (m.columnOf (n.inflowKey l) t) := by
  unfold inflowOf inflowKey
  cases l.neighbour with
  | some source => rfl
  | none =>
    unfold leafInflowAt
    dsimp only
    split
    · next flow hr => exact absurd (by rw [kind, hr]; rfl) hk
    · next factors hr => exact absurd (by rw [kind, hr]; rfl) hk
    · rfl

theorem outflowOf_eq (hk : n.kind ≠ .fixedOutput) :
    n.outflowOf catalogue m x t l = x (m.columnOf (n.outflowKey l) t) := by
  unfold outflowOf outflowKey
  cases l.neighbour with
  | some target => rfl
  | none =>
    unfold leafOutflowAt
    dsimp only
    split
    · next inputs flow hr => exact absurd (by rw [kind, hr]; rfl) hk
    · rfl

theorem inflowOf_zero (hk : ¬n.kind.isInput) : n.inflowOf catalogue m (fun _ => 0) t l = 0 :=
  inflowOf_eq hk

theorem outflowOf_zero (hk : n.kind ≠ .fixedOutput) :
    n.outflowOf catalogue m (fun _ => 0) t l = 0 :=
  outflowOf_eq hk

theorem mem_inLabels : l ∈ inLabels nodes n ↔
    n.inlets = [] ∧ l = ⟨none, leafInputName nodes n⟩ ∨
      ∃ i ∈ n.inlets, l = ⟨some i.source, i.commodity⟩ := by
  unfold inLabels
  cases n.inlets with
  | nil => simp
  | cons i r =>
    simp only [List.mem_map, reduceCtorEq, false_and, false_or, eq_comm]

theorem mem_outLabels : l ∈ outLabels nodes n ↔
    outlets nodes n.name = [] ∧ l = ⟨none, n.leafOutputName⟩ ∨
      ∃ o ∈ outlets nodes n.name, l = ⟨some o.target, o.commodity⟩ := by
  unfold outLabels
  cases outlets nodes n.name with
  | nil => simp
  | cons o r =>
    simp only [List.mem_map, reduceCtorEq, false_and, false_or, eq_comm]

theorem steps_inflowKey (l : Label) : (n.inflowKey l).steps? steps = some steps := by
  unfold inflowKey
  split <;> rfl

theorem steps_outflowKey (l : Label) : (n.outflowKey l).steps? steps = some steps := by
  unfold outflowKey
  split <;> rfl

theorem inflowKey_mem (hn : n ∈ nodes) (hk : ¬n.kind.isInput) (hl : l ∈ inLabels nodes n) :
    n.inflowKey l ∈ variableKeys nodes := by
  rcases mem_inLabels.1 hl with ⟨hi, rfl⟩ | ⟨i, hi, rfl⟩
  · exact mem_variableKeys_inflow hn hk hi
  · exact mem_variableKeys_edge hn hi

theorem outflowKey_mem (hn : n ∈ nodes) (hk : n.kind ≠ .fixedOutput) (hl : l ∈ outLabels nodes n) :
    n.outflowKey l ∈ variableKeys nodes := by
  rcases mem_outLabels.1 hl with ⟨hs, rfl⟩ | ⟨o, ho, rfl⟩
  · exact mem_variableKeys_outflow hn hk hs
  · exact mem_variableKeys_outlet ho

/-- As no input is named twice, input flows differ in their variables. -/
theorem inflowKey_inj (hinputs : n.inputs.Nodup) (hl : l ∈ inLabels nodes n)
    (hl' : l' ∈ inLabels nodes n) (h : n.inflowKey l = n.inflowKey l') : l = l' := by
  rcases mem_inLabels.1 hl with ⟨hi, rfl⟩ | ⟨i, hi, rfl⟩ <;>
    rcases mem_inLabels.1 hl' with ⟨hi', rfl⟩ | ⟨i', hi', rfl⟩
  · rfl
  · exact absurd hi (List.ne_nil_of_mem hi')
  · exact absurd hi' (List.ne_nil_of_mem hi)
  · rw [List.inj_on_of_nodup_map hinputs hi hi' (VariableKey.edge.inj h).1]

theorem outflowKey_inj (hw : Wired nodes) (hinputs : ∀ n ∈ nodes, n.inputs.Nodup)
    (hl : l ∈ outLabels nodes n) (hl' : l' ∈ outLabels nodes n)
    (h : n.outflowKey l = n.outflowKey l') : l = l' := by
  rcases mem_outLabels.1 hl with ⟨hs, rfl⟩ | ⟨o, ho, rfl⟩ <;>
    rcases mem_outLabels.1 hl' with ⟨hs', rfl⟩ | ⟨o', ho', rfl⟩
  · rfl
  · exact absurd hs (List.ne_nil_of_mem ho')
  · exact absurd hs' (List.ne_nil_of_mem ho)
  · rw [hw.outlet_unique hinputs ho ho' (VariableKey.edge.inj h).2]

/-- No input flow is an output flow, as a node does not feed itself. -/
theorem outflowKey_ne_inflowKey (hself : n.name ∉ n.inputs) (hl : l ∈ inLabels nodes n) :
    n.outflowKey l' ≠ n.inflowKey l := by
  have hloop : ∀ target, VariableKey.edge n.name target ≠ n.inflowKey l := by
    intro target he
    rcases mem_inLabels.1 hl with ⟨hi, rfl⟩ | ⟨i, hi, rfl⟩
    · exact VariableKey.noConfusion he
    · exact hself ((VariableKey.edge.inj he).1 ▸ List.mem_map_of_mem hi)
  unfold outflowKey
  split
  · exact hloop _
  · unfold inflowKey
    split <;> exact VariableKey.noConfusion

end Flows

section Probes

variable (catalogue : Catalogue Rat) {nodes : List (Node Rat)} {n : Node Rat} {steps t : Nat}
variable {l : Label}
variable (hnames : ((variableKeys nodes).map (·.name)).Nodup) (hn : n ∈ nodes) (ht : t < steps)

include hnames hn ht

/-- A probe of an input flow sees no other one. -/
theorem inflowOf_unitAt (hk : ¬n.kind.isInput) (hinputs : n.inputs.Nodup)
    (hl : l ∈ inLabels nodes n) : ∀ l' ∈ inLabels nodes n,
    n.inflowOf catalogue (registry nodes steps)
      (unitAt ((registry nodes steps).columnOf (n.inflowKey l) t)) t l' =
        if l' = l then 1 else 0 := by
  intro l' hl'
  rw [inflowOf_eq hk, unitAt_columnOf hnames (inflowKey_mem hn hk hl) (steps_inflowKey l)
    (inflowKey_mem hn hk hl') (steps_inflowKey l') ht ht]
  have hiff : n.inflowKey l' = n.inflowKey l ∧ t = t ↔ l' = l :=
    ⟨fun h => inflowKey_inj hinputs hl' hl h.1, fun h => ⟨congrArg _ h, rfl⟩⟩
  rw [if_congr hiff rfl rfl]

theorem outflowOf_unitAt (hk : n.kind ≠ .fixedOutput) (hw : Wired nodes)
    (hinputs : ∀ n ∈ nodes, n.inputs.Nodup) (hl : l ∈ outLabels nodes n) :
    ∀ l' ∈ outLabels nodes n, n.outflowOf catalogue (registry nodes steps)
      (unitAt ((registry nodes steps).columnOf (n.outflowKey l) t)) t l' =
        if l' = l then 1 else 0 := by
  intro l' hl'
  rw [outflowOf_eq hk, unitAt_columnOf hnames (outflowKey_mem hn hk hl) (steps_outflowKey l)
    (outflowKey_mem hn hk hl') (steps_outflowKey l') ht ht]
  have hiff : n.outflowKey l' = n.outflowKey l ∧ t = t ↔ l' = l :=
    ⟨fun h => outflowKey_inj hw hinputs hl' hl h.1, fun h => ⟨congrArg _ h, rfl⟩⟩
  rw [if_congr hiff rfl rfl]

/-- A probe of an input flow sees nothing that flows out. -/
theorem outflowOf_unitAt_inflowKey (hk : ¬n.kind.isInput) (hw : Wired nodes)
    (hself : n.name ∉ n.inputs) (hl : l ∈ inLabels nodes n) : ∀ l' ∈ outLabels nodes n,
    n.outflowOf catalogue (registry nodes steps)
        (unitAt ((registry nodes steps).columnOf (n.inflowKey l) t)) t l' =
      n.outflowOf catalogue (registry nodes steps) (fun _ => 0) t l' := by
  intro l' hl'
  by_cases hfixed : n.kind = .fixedOutput
  · rcases mem_outLabels.1 hl' with ⟨-, rfl⟩ | ⟨o, ho, -⟩
    · obtain ⟨inputs, flow, hr⟩ := role_of_fixedOutput hfixed
      unfold outflowOf leafOutflowAt
      simp only [hr]
    · exact absurd (by rw [hfixed]; decide)
        (hw.not_isOutput_of_served hn (List.ne_nil_of_mem ho))
  · rw [outflowOf_eq hfixed, outflowOf_eq hfixed, unitAt_columnOf hnames (inflowKey_mem hn hk hl)
      (steps_inflowKey l) (outflowKey_mem hn hfixed hl') (steps_outflowKey l') ht ht,
      if_neg fun he => outflowKey_ne_inflowKey hself hl he.1]

/-- A probe of an input flow sees nothing of a storage. -/
theorem netCharge_unitAt_inflowKey (hk : ¬n.kind.isInput) (hl : l ∈ inLabels nodes n)
    (hours : Rat) :
    n.netCharge hours (n.operation catalogue (registry nodes steps)
        (unitAt ((registry nodes steps).columnOf (n.inflowKey l) t))) t =
      n.netCharge hours (n.operation catalogue (registry nodes steps) fun _ => 0) t := by
  refine storedAt_unitAt hnames ht hn (inflowKey_mem hn hk hl) (steps_inflowKey l) ?_ ?_ <;>
    · unfold inflowKey
      split <;> exact VariableKey.noConfusion

end Probes

end Node

/-! ## Totals and shares -/

namespace Label

section Shares

variable {catalogue : Catalogue Rat} {labels : List Label} {ratios : Keyed (Quantity Rat)}
variable {value : Label → Rat} {l : Label} {e e' : String × Quantity Rat} {p : Label → Bool}

theorem total_zero (h : ∀ l ∈ labels, p l = true → value l = 0) : total labels p value = 0 := by
  unfold total
  refine List.sum_eq_zero fun r hr => ?_
  obtain ⟨l, hl, rfl⟩ := List.mem_map.1 hr
  exact h l (List.mem_of_mem_filter hl) (List.of_mem_filter hl)

/-- No flow has a share under two keys. -/
theorem not_mem_members (hkeys : e.1 ≠ e'.1) (hl : l ∈ members labels ratios e.1) :
    l ∉ members labels ratios e'.1 := by
  intro hl'
  have h := List.of_mem_filter hl
  have h' := List.of_mem_filter hl'
  unfold sharesKey at h h'
  split at h
  · rw [if_pos (by assumption)] at h'
    exact hkeys ((of_decide_eq_true h).symm.trans (of_decide_eq_true h'))
  · rw [if_neg (by assumption)] at h'
    exact hkeys (Option.some.inj ((of_decide_eq_true h).symm.trans (of_decide_eq_true h')))

theorem shareOf_zero (h : ∀ l ∈ members labels ratios e.1, value l = 0) :
    shareOf catalogue labels ratios value e = 0 := by
  have hsum : ((members labels ratios e.1).map value).sum = 0 :=
    total_zero fun l hl hp => h l (List.mem_filter.2 ⟨hl, hp⟩)
  unfold shareOf
  rw [hsum, zero_div]

variable (hvalue : ∀ l' ∈ labels, value l' = if l' = l then 1 else 0)

include hvalue

/-- A flow counts in the totals that it is a part of, and in no other one. -/
theorem total_ne_zero_iff (hl : l ∈ labels) : total labels p value ≠ 0 ↔ p l = true := by
  constructor
  · intro hne
    by_contra hp
    refine hne (total_zero fun l' hl' hp' => ?_)
    rw [hvalue l' hl', if_neg]
    rintro rfl
    exact hp hp'
  · intro hp
    have hone : value l = 1 := (hvalue l hl).trans (if_pos rfl)
    have hsum : 1 ≤ total labels p value := by
      rw [← hone]
      refine List.single_le_sum ?_ _ (List.mem_map_of_mem (List.mem_filter.2 ⟨hl, hp⟩))
      intro r hr
      obtain ⟨l', hl', rfl⟩ := List.mem_map.1 hr
      rw [hvalue l' (List.mem_of_mem_filter hl')]
      split <;> simp
    linarith

/-- A flow counts in its own share. -/
theorem shareOf_ne_zero (hl : l ∈ members labels ratios e.1)
    (hratio : 0 < ratioAmong catalogue (members labels ratios e.1) e.2) :
    shareOf catalogue labels ratios value e ≠ 0 := by
  obtain ⟨hmem, hshares⟩ := List.mem_filter.1 hl
  exact div_ne_zero ((total_ne_zero_iff hvalue hmem).2 hshares) hratio.ne'

/-- It does not count in a share that it has no part in. -/
theorem shareOf_eq_zero (hl : l ∉ members labels ratios e.1) :
    shareOf catalogue labels ratios value e = 0 := by
  refine shareOf_zero fun l' hl' => ?_
  rw [hvalue l' (List.mem_of_mem_filter hl'), if_neg]
  rintro rfl
  exact hl hl'

/-- Of two shares that are compared, a flow is in one only. -/
theorem sub_shareOf_ne (hkeys : e.1 ≠ e'.1)
    (hl : l ∈ members labels ratios e.1 ∨ l ∈ members labels ratios e'.1)
    (hratio : 0 < ratioAmong catalogue (members labels ratios e.1) e.2)
    (hratio' : 0 < ratioAmong catalogue (members labels ratios e'.1) e'.2) :
    shareOf catalogue labels ratios value e - shareOf catalogue labels ratios value e' ≠ 0 := by
  rcases hl with hl | hl
  · rw [shareOf_eq_zero hvalue (not_mem_members hkeys hl), sub_zero]
    exact shareOf_ne_zero hvalue hl hratio
  · rw [shareOf_eq_zero hvalue (not_mem_members hkeys.symm hl), zero_sub]
    exact neg_ne_zero.2 (shareOf_ne_zero hvalue hl hratio')

end Shares

end Label

end SupplyNet
