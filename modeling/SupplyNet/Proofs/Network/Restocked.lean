import Mathlib
import SupplyNet.Proofs.Measure.Recounted
import SupplyNet.Proofs.Network.Gifts
import SupplyNet.Proofs.Network.Stocked

/-!
Restocked nodes. The values of a storage can be replaced by others, as long as it takes in on balance
what it took in before and charges no more. Nothing else changes but the levels and the costs of the
size.
-/
set_option autoImplicit false

namespace SupplyNet

/-! ## Prices of storages -/

theorem ratioTo_pos {unit : Option (Measure.Unit Rat)} {scale : Rat}
    (hunit : ∀ u ∈ unit, u.Formed) (hscale : 0 < scale) : 0 < ratioTo unit scale := by
  unfold ratioTo
  cases unit with
  | none => exact one_pos
  | some u => exact div_pos (hunit u rfl).scale_pos hscale

/-- What a unit of the size of a storage costs. -/
def Node.storagePrice (nodes : List (Node Rat)) (catalogue : Catalogue Rat) (currency : Rat)
    (n : Node Rat) (s : Storage Rat) : Rat :=
  Costs.price currency (catalogue.scaleOf (n.sizeName nodes) * 3600) s.costs

/-- A storage that costs anything has a price. -/
theorem Node.storagePrice_pos {nodes : List (Node Rat)} {catalogue : Catalogue Rat}
    {currency : Measure.Unit Rat} {n : Node Rat} {s : Storage Rat} (hcatalogue : catalogue.Formed)
    (hcurrency : currency.Formed) (hcosts : s.costs.Formed) (h : 0 < s.costs.magnitude) :
    0 < n.storagePrice nodes catalogue currency.scale s := by
  have hscale : 0 < catalogue.scaleOf (n.sizeName nodes) * 3600 :=
    mul_pos (hcatalogue.scaleOf_pos _) (by norm_num)
  exact mul_pos h (ratioTo_pos hcosts (div_pos hcurrency.scale_pos hscale))

/-! ## Other values of a storage -/

/-- Two assignments agree at all variables but those of the storage of a node. -/
def AgreeBut (nodes : List (Node Rat)) (steps : Nat) (n : Node Rat) (x y : Var → Rat) : Prop :=
  ∀ k ∈ variableKeys nodes, k ∉ n.storageKeys →
    (k.steps? steps = none →
      y ((registry nodes steps).scalarOf k) = x ((registry nodes steps).scalarOf k)) ∧
    (k.steps? steps = some steps → ∀ t < steps,
      y ((registry nodes steps).columnOf k t) = x ((registry nodes steps).columnOf k t))

/-- A node that does without its storage. -/
def Node.unstocked (n : Node Rat) : Node Rat := { n with storage := none }

theorem Node.alike_unstocked (n : Node Rat) : n.unstocked.Alike n :=
  ⟨rfl, rfl, rfl, rfl, rfl, rfl, rfl, rfl, rfl, rfl, rfl⟩

theorem forall₂_unstocked (nodes : List (Node Rat)) :
    List.Forall₂ Node.Alike (nodes.map Node.unstocked) nodes :=
  List.forall₂_map_left_iff.2 (List.forall₂_same.2 fun n _ => n.alike_unstocked)

/-- The variables that remain do not belong to a storage. -/
theorem mem_variableKeys_unstocked {nodes : List (Node Rat)} {k : VariableKey}
    (h : k ∈ variableKeys (nodes.map Node.unstocked)) :
    k ∈ variableKeys nodes ∧ k.isStored = false := by
  constructor
  · obtain ⟨n', hn', hk⟩ := mem_variableKeys.1 h
    obtain ⟨n, hn, rfl⟩ := List.mem_map.1 hn'
    rw [← outlets_eq_of_alike (forall₂_unstocked nodes)] at hk
    refine mem_variableKeys.2 ⟨n, hn, hk.imp (fun hk => ?_) id⟩
    rcases mem_declaredKeys.1 hk with hsize | hedge | ⟨hstorage, -⟩
    · exact mem_declaredKeys.2 (Or.inl hsize)
    · exact mem_declaredKeys.2 (Or.inr (Or.inl hedge))
    · exact absurd hstorage (by simp [Node.unstocked])
  · by_contra hstored
    obtain ⟨n', hn', hstorage, -⟩ := exists_stored h (Bool.eq_true_of_not_eq_false hstored)
    obtain ⟨n, -, rfl⟩ := List.mem_map.1 hn'
    exact absurd hstorage (by simp [Node.unstocked])

namespace AgreeBut

variable {nodes : List (Node Rat)} {steps : Nat} {n m : Node Rat} {x y : Var → Rat}
variable (h : AgreeBut nodes steps n x y)

include h

theorem traces : Traces (nodes.map Node.unstocked) (registry nodes steps) (registry nodes steps)
    steps id x y := by
  have hnot : ∀ k : VariableKey, k.isStored = false → k ∉ n.storageKeys := fun k hk hmem =>
    absurd (hk.symm.trans (isStored_of_mem_storageKeys hmem)) (by simp)
  refine ⟨fun k hk hs => ?_, fun k hk hflow t ht => ?_⟩
  · obtain ⟨hmem, hstored⟩ := mem_variableKeys_unstocked hk
    exact (h k hmem (hnot k hstored)).1 hs
  · obtain ⟨hmem, hstored⟩ := mem_variableKeys_unstocked hk
    refine (h k hmem (hnot k hstored)).2 ?_ t ht
    cases k with
    | edge _ _ | outflow _ | inflow _ => rfl
    | _ => exact absurd hflow (by simp [VariableKey.isFlow])

variable (hm : m ∈ nodes) (catalogue : Catalogue Rat)

include hm

theorem size (hsize : m.hasSize = true) :
    (m.operation catalogue (registry nodes steps) y).size =
      (m.operation catalogue (registry nodes steps) x).size :=
  (h _ (mem_variableKeys_size hm hsize) (by simp [Node.storageKeys])).1 rfl

theorem inflow : ∀ t < steps, ∀ l ∈ m.inLabels nodes,
    (m.operation catalogue (registry nodes steps) y).inflow t l =
      (m.operation catalogue (registry nodes steps) x).inflow t l := fun _ ht _ hl =>
  h.traces.inflowOf (List.mem_map_of_mem hm) m.alike_unstocked (.refl steps _) ht
    (m.alike_unstocked.inLabels (forall₂_unstocked nodes) ▸ hl)

theorem outflow : ∀ t < steps, ∀ l ∈ m.outLabels nodes,
    (m.operation catalogue (registry nodes steps) y).outflow t l =
      (m.operation catalogue (registry nodes steps) x).outflow t l := fun _ ht _ hl =>
  h.traces.outflowOf (List.mem_map_of_mem hm) m.alike_unstocked (fun _ => .refl steps _) ht
    (m.alike_unstocked.outLabels (forall₂_unstocked nodes) ▸ hl)

/-- All other nodes do the same. -/
theorem agree (hname : m.name ≠ n.name) :
    m.Agree nodes steps (m.operation catalogue (registry nodes steps) x)
      (m.operation catalogue (registry nodes steps) y) := by
  have hnot : ∀ k ∈ m.storageKeys, k ∉ n.storageKeys := by
    intro k hk hmem
    rcases mem_storageKeys.1 hk with rfl | rfl | rfl | rfl <;>
      exact absurd hmem (by simp [Node.storageKeys, hname])
  refine ⟨h.size hm catalogue, fun hst => ?_, h.inflow hm catalogue, h.outflow hm catalogue⟩
  obtain ⟨hsize, hlevel, hcharge, hdischarge⟩ := stored_mem_variableKeys hm hst
  exact ⟨(h _ hsize (hnot _ (by simp [Node.storageKeys]))).1 rfl,
    (h _ hlevel (hnot _ (by simp [Node.storageKeys]))).2 rfl,
    (h _ hcharge (hnot _ (by simp [Node.storageKeys]))).2 rfl,
    (h _ hdischarge (hnot _ (by simp [Node.storageKeys]))).2 rfl⟩

end AgreeBut

/-- Whatever the values of a storage, there is an assignment with them that is the same elsewhere. -/
theorem exists_agreeBut {nodes : List (Node Rat)} {steps : Nat} {n : Node Rat}
    (hnames : ((variableKeys nodes).map (·.name)).Nodup) (hn : n ∈ nodes)
    (hst : n.storage.isSome = true) (x : Var → Rat) (v : StorageValues) :
    ∃ y, AgreeBut nodes steps n x y ∧
      v.Agree steps ((registry nodes steps).storageValues y n.name) := by
  refine ⟨(registry nodes steps).assigned nodes ((registry nodes steps).extendedBy x n v),
    fun k hk hnot => ⟨fun hs => ?_, fun hs t ht => ?_⟩,
    agree_extendedBy hnames (mem_variableKeys_storage hn hst) _ x v⟩
  · rw [assigned_scalarOf _ hnames hk hs, Model.extendedBy, if_neg hnot]
  · rw [assigned_columnOf _ hnames hk hs ht, Model.extendedBy, if_neg hnot]

/-! ## Restocked networks -/

/-- Values of a storage that can stand in for others: on balance they take in the same, and they
charge no more. -/
structure StorageValues.StandsFor (steps : Nat) (v w : StorageValues) : Prop where
  nonneg : w.Nonneg steps
  net : ∀ t < steps, w.charge t - w.discharge t = v.charge t - v.discharge t
  charge_le : ∀ t < steps, w.charge t ≤ v.charge t

section Compiled

variable {nodes : List (Node Rat)} {grid : Grid} {config : Config Rat} {cs : List NodeCommodities}
variable {groups : List (Rows Rat)} {net : Network Rat} {n : Node Rat} {s : Storage Rat}
variable {gift gift' : Nat → Rat} {x y : Var → Rat} {w : StorageValues}
variable (hc : Compiled nodes grid config cs groups net) (hn : n ∈ nodes)
variable (hs : n.storage = some s) (hbut : AgreeBut nodes grid.size n x y)
variable (hw : w.Agree grid.size ((registry nodes grid.size).storageValues y n.name))

include hc hn hs hbut hw

theorem FeasibleGiven.restock (hx : FeasibleGiven nodes grid config n s gift x)
    (hstands : ((registry nodes grid.size).storageValues x n.name).StandsFor grid.size w)
    (hgains : s.Gains grid.hours grid.size gift' w) :
    FeasibleGiven nodes grid config n s gift' y := by
  have hst : n.storage.isSome = true := by rw [hs]; rfl
  have hnonneg := hstands.nonneg.congr hw
  have hbounds : ∀ v : Var, v.index < (registry nodes grid.size).columns.size → 0 ≤ y v := by
    have hbefore := (nonneg_iff hc.names_nodup).1 fun v hv => hx.nonneg v.index hv
    refine (nonneg_iff hc.names_nodup).2 fun k hk => ?_
    by_cases hmem : k ∈ n.storageKeys
    · rcases mem_storageKeys.1 hmem with rfl | rfl | rfl | rfl
      · exact ⟨fun _ => hnonneg.size, fun hs => absurd hs (by simp [VariableKey.steps?])⟩
      · exact ⟨fun hs => absurd hs (by simp [VariableKey.steps?]), fun _ => hnonneg.level⟩
      · exact ⟨fun hs => absurd hs (by simp [VariableKey.steps?]), fun _ => hnonneg.charge⟩
      · exact ⟨fun hs => absurd hs (by simp [VariableKey.steps?]), fun _ => hnonneg.discharge⟩
    · obtain ⟨hscalar, hcolumn⟩ := hbut k hk hmem
      refine ⟨fun hs => ?_, fun hs t ht => ?_⟩
      · rw [hscalar hs]
        exact (hbefore k hk).1 hs
      · rw [hcolumn hs t ht]
        exact (hbefore k hk).2 hs t ht
  refine ⟨fun i hi => hbounds ⟨i⟩ hi, fun m hm hname =>
    (hx.others m hm hname).congr (hbut.agree hm config.catalogue hname), ?_, hgains.congr hw⟩
  refine hx.passes.restock (hbut.size hn config.catalogue) (hbut.inflow hn config.catalogue)
    (hbut.outflow hn config.catalogue) (fun t ht => ?_) fun t ht => ?_
  · unfold Node.netCharge
    rw [if_pos hst, if_pos hst]
    refine congrArg (· / grid.hours) ?_
    exact (congrArg₂ (· - ·) (hw.charge t ht) (hw.discharge t ht)).trans (hstands.net t ht)
  · unfold Node.chargeFlow
    rw [if_pos hst, if_pos hst]
    refine mul_le_mul_of_nonneg_left ?_ (one_div_pos.2 grid.hours_pos).le
    exact (hw.charge t ht).trans_le (hstands.charge_le t ht)

/-- The costs change with the size of the storage. -/
theorem Compiled.objective_restock (hbuilt : ∀ m ∈ nodes, m.Built)
    {currency : Measure.Unit Rat} (hcurrency : Measure.Unit.read config.currency = .ok currency) :
    net.model.objective.eval y = net.model.objective.eval x +
      n.storagePrice nodes config.catalogue currency.scale s *
        (w.size - ((registry nodes grid.size).storageValues x n.name).size) := by
  obtain ⟨before, after, rfl⟩ := List.append_of_mem hn
  have hnames := hc.wired.names_nodup
  rw [List.map_append, List.map_cons, List.nodup_middle, List.nodup_cons] at hnames
  have hsame : ∀ m ∈ before ++ after,
      m.expenses (before ++ n :: after) config.catalogue currency.scale grid.hours grid.size
          (m.operation config.catalogue (registry (before ++ n :: after) grid.size) y) =
        m.expenses (before ++ n :: after) config.catalogue currency.scale grid.hours grid.size
          (m.operation config.catalogue (registry (before ++ n :: after) grid.size) x) := by
    intro m hm
    have hname : m.name ≠ n.name := fun he => hnames.1 (by
      rw [← List.map_append, ← he]
      exact List.mem_map_of_mem hm)
    have hmem : m ∈ before ++ n :: after := by
      rcases List.mem_append.1 hm with hm | hm
      · exact List.mem_append_left _ hm
      · exact List.mem_append_right _ (List.mem_cons_of_mem _ hm)
    exact Node.expenses_congr (hbut.agree hmem config.catalogue hname)
  have hown : n.expenses (before ++ n :: after) config.catalogue currency.scale grid.hours grid.size
        (n.operation config.catalogue (registry (before ++ n :: after) grid.size) y) =
      n.expenses (before ++ n :: after) config.catalogue currency.scale grid.hours grid.size
          (n.operation config.catalogue (registry (before ++ n :: after) grid.size) x) +
        n.storagePrice (before ++ n :: after) config.catalogue currency.scale s * (w.size -
          ((registry (before ++ n :: after) grid.size).storageValues x n.name).size) := by
    have hstorage : ∀ o : Operation, n.storageExpenses (before ++ n :: after) config.catalogue
        currency.scale o = n.storagePrice (before ++ n :: after) config.catalogue currency.scale s *
          o.storage.size := by
      intro o
      unfold Node.storageExpenses
      rw [hs]
      rfl
    unfold Node.expenses
    rw [Node.sizeExpenses_congr (hbut.size hn config.catalogue),
      Node.flowExpenses_congr _ _ _ (hbut.inflow hn config.catalogue), hstorage, hstorage,
      ← hw.size]
    unfold Node.operation
    ring
  rw [hc.eval_objective hcurrency fun m hm => (hbuilt m hm).not_isInput_of_flowCosts,
    hc.eval_objective hcurrency fun m hm => (hbuilt m hm).not_isInput_of_flowCosts]
  simp only [List.map_append, List.map_cons, List.sum_append, List.sum_cons]
  rw [List.map_congr_left fun m hm => hsame m (List.mem_append_left _ hm),
    List.map_congr_left fun m hm => hsame m (List.mem_append_right _ hm), hown]
  ring

omit hbut hw in
/-- A storage can be run in any other way that stands for the one it is run in, with whatever gifts
this takes, at the price of the difference in size. -/
theorem Compiled.exists_restocked (hbuilt : ∀ m ∈ nodes, m.Built) {currency : Measure.Unit Rat}
    (hcurrency : Measure.Unit.read config.currency = .ok currency)
    (hx : FeasibleGiven nodes grid config n s gift x)
    (hstands : ((registry nodes grid.size).storageValues x n.name).StandsFor grid.size w)
    (hgains : s.Gains grid.hours grid.size gift' w) :
    ∃ y, FeasibleGiven nodes grid config n s gift' y ∧
      w.Agree grid.size ((registry nodes grid.size).storageValues y n.name) ∧
      net.model.objective.eval y = net.model.objective.eval x +
        n.storagePrice nodes config.catalogue currency.scale s *
          (w.size - ((registry nodes grid.size).storageValues x n.name).size) := by
  obtain ⟨y, hbut, hw⟩ := exists_agreeBut hc.names_nodup hn (by rw [hs]; rfl) x w
  exact ⟨y, hx.restock hc hn hs hbut hw hstands hgains, hw,
    hc.objective_restock hn hs hbut hw hbuilt hcurrency⟩

omit hbut hw in
/-- If a storage of the same size can be run without gifts, so can the network at the same costs. -/
theorem Compiled.exists_feasible_restocked (hbuilt : ∀ m ∈ nodes, m.Built)
    (hx : FeasibleGiven nodes grid config n s gift x)
    (hstands : ((registry nodes grid.size).storageValues x n.name).StandsFor grid.size w)
    (hsize : w.size = ((registry nodes grid.size).storageValues x n.name).size)
    (hgains : s.Gains grid.hours grid.size (fun _ => 0) w) :
    ∃ y, net.model.program.Feasible y ∧
      w.Agree grid.size ((registry nodes grid.size).storageValues y n.name) ∧
      net.model.objective.eval y = net.model.objective.eval x := by
  obtain ⟨currency, hcurrency⟩ := hc.exists_currency
  obtain ⟨y, hy, hagree, hcost⟩ := hc.exists_restocked hn hs hbuilt hcurrency hx hstands hgains
  rw [hsize, sub_self, mul_zero, add_zero] at hcost
  exact ⟨y, (hc.feasibleGiven_zero_iff hbuilt hn hs).1 hy, hagree, hcost⟩

omit hs hbut hw in
theorem FeasibleGiven.nonneg_storage (hs : n.storage = some s)
    (hx : FeasibleGiven nodes grid config n s gift x) :
    ((registry nodes grid.size).storageValues x n.name).Nonneg grid.size :=
  nonneg_storageValues hc.names_nodup hn (by rw [hs]; rfl) fun v hv => hx.nonneg v.index hv

end Compiled

/-- Parts of nothing and of something that weigh the same make a whole. -/
theorem exists_share {gift need : Rat} (hgift : 0 < gift) (hneed : 0 < need) :
    ∃ share : Rat, 0 < share ∧ share < 1 ∧ share * gift = (1 - share) * need := by
  have hsum : 0 < gift + need := add_pos hgift hneed
  refine ⟨need / (gift + need), div_pos hneed hsum, (div_lt_one hsum).2 (by linarith), ?_⟩
  field_simp
  ring

/-! ## Values that stand for others -/

/-- What a storage charges and discharges at once. -/
def StorageValues.both (v : StorageValues) (t : Nat) : Rat := min (v.charge t) (v.discharge t)

/-- Without it, a storage charges or discharges only. -/
theorem StorageValues.netted_both (v : StorageValues) (t : Nat) :
    (v.netted v.both).charge t = 0 ∨ (v.netted v.both).discharge t = 0 :=
  (min_choice (v.charge t) (v.discharge t)).imp (fun h => sub_eq_zero.2 h.symm)
    fun h => sub_eq_zero.2 h.symm

namespace StorageValues.Nonneg

variable {steps : Nat} {v : StorageValues} (h : v.Nonneg steps)

include h

theorem both_mem : ∀ t < steps, 0 ≤ v.both t ∧ v.both t ≤ v.charge t ∧ v.both t ≤ v.discharge t :=
  fun t ht => ⟨le_min (h.charge t ht) (h.discharge t ht), min_le_left _ _, min_le_right _ _⟩

theorem standsFor_netted {less : Nat → Rat} (hless : ∀ t < steps, 0 ≤ less t ∧
    less t ≤ v.charge t ∧ less t ≤ v.discharge t) : v.StandsFor steps (v.netted less) :=
  ⟨⟨h.size, h.level, fun t ht => sub_nonneg.2 (hless t ht).2.1,
    fun t ht => sub_nonneg.2 (hless t ht).2.2⟩, fun _ _ => sub_sub_sub_cancel_right _ _ _,
    fun t ht => sub_le_self _ (hless t ht).1⟩

theorem standsFor_lowered {depth : Rat} (hdepth : ∀ t < steps, depth ≤ v.level t) :
    v.StandsFor steps (v.lowered depth) :=
  ⟨⟨h.size, fun t ht => sub_nonneg.2 (hdepth t ht), h.charge, h.discharge⟩, fun _ _ => rfl,
    fun _ _ => le_rfl⟩

theorem standsFor_resized {size : Rat} (hsize : 0 ≤ size) : v.StandsFor steps (v.resized size) :=
  ⟨⟨hsize, h.level, h.charge, h.discharge⟩, fun _ _ => rfl, fun _ _ => le_rfl⟩

variable {w : StorageValues} (h' : w.Nonneg steps) {a b : Rat} (ha : 0 ≤ a) (hb : 0 ≤ b)

include h' ha hb

theorem blend : (v.blend a b w).Nonneg steps :=
  ⟨add_nonneg (mul_nonneg ha h.size) (mul_nonneg hb h'.size),
    fun t ht => add_nonneg (mul_nonneg ha (h.level t ht)) (mul_nonneg hb (h'.level t ht)),
    fun t ht => add_nonneg (mul_nonneg ha (h.charge t ht)) (mul_nonneg hb (h'.charge t ht)),
    fun t ht => add_nonneg (mul_nonneg ha (h.discharge t ht)) (mul_nonneg hb (h'.discharge t ht))⟩

/-- What one storage of two charges and discharges at once can be left out of the whole. -/
theorem standsFor_netted_blend {less : Nat → Rat} (hless : ∀ t < steps, 0 ≤ less t ∧
    less t ≤ v.charge t ∧ less t ≤ v.discharge t) :
    (v.blend a b w).StandsFor steps ((v.blend a b w).netted fun t => a * less t) := by
  refine (h.blend h' ha hb).standsFor_netted fun t ht => ?_
  obtain ⟨hnonneg, hcharge, hdischarge⟩ := hless t ht
  exact ⟨mul_nonneg ha hnonneg,
    le_add_of_le_of_nonneg (mul_le_mul_of_nonneg_left hcharge ha)
      (mul_nonneg hb (h'.charge t ht)),
    le_add_of_le_of_nonneg (mul_le_mul_of_nonneg_left hdischarge ha)
      (mul_nonneg hb (h'.discharge t ht))⟩

/-- What one storage of two always holds need not be held by the whole. -/
theorem standsFor_lowered_blend {depth : Rat} (hdepth : ∀ t < steps, depth ≤ v.level t) :
    (v.blend a b w).StandsFor steps ((v.blend a b w).lowered (a * depth)) :=
  (h.blend h' ha hb).standsFor_lowered fun t ht =>
    le_add_of_le_of_nonneg (mul_le_mul_of_nonneg_left (hdepth t ht) ha)
      (mul_nonneg hb (h'.level t ht))

end StorageValues.Nonneg

end SupplyNet
