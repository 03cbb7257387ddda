import Mathlib
import SupplyNet.Proofs.Network.Conservation
import SupplyNet.Proofs.Network.Costs
import SupplyNet.Proofs.Network.Operation

/-!
Expenses. What a node costs follows from its operation: each unit of its size and of the size of its
storage has a price, and so has each unit of an input flow that lasts an hour. The objective of a
network is the sum of the expenses of its nodes.
-/
set_option autoImplicit false

namespace SupplyNet

/-! ## Prices -/

namespace Costs

/-- Costs in a currency for each of some units. -/
def price (currency scale : Rat) (costs : Quantity Rat) : Rat :=
  costs.magnitude * ratioTo costs.unit (currency / scale)

theorem ofSize_eq {currency unit : Measure.Unit Rat} {costs : Quantity Rat} {r : Rat}
    (h : ofSize currency unit costs = .ok r) : r = price currency.scale unit.scale costs := by
  obtain ⟨target, ht, h⟩ := bind_eq_ok_iff.1 h
  rw [Quantity.magnitudeIn_eq h, Measure.Unit.scale_of_div ht]
  rfl

theorem scale_of_mul_hour {unit amount : Measure.Unit Rat} (h : unit.mul hour = .ok amount) :
    amount.scale = unit.scale * 3600 := by
  unfold Measure.Unit.mul at h
  cases hg : unit.toGauge.mul? hour.toGauge with
  | none =>
    rw [hg] at h
    cases h
  | some g =>
    rw [hg] at h
    rw [← Except.ok.inj h]
    obtain ⟨d, -, rfl⟩ := Option.map_eq_some_iff.1 hg
    have hhour : (hour : Measure.Unit Rat).scale = 3600 := by
      change (3600.0 : Rat) = 3600
      norm_num
    change unit.scale * (hour : Measure.Unit Rat).scale = unit.scale * 3600
    rw [hhour]

theorem ofAmount_eq {currency unit : Measure.Unit Rat} {costs : Quantity Rat} {r : Rat}
    (h : ofAmount currency unit costs = .ok r) :
    r = price currency.scale (unit.scale * 3600) costs := by
  obtain ⟨amount, ha, h⟩ := bind_eq_ok_iff.1 h
  obtain ⟨target, ht, h⟩ := bind_eq_ok_iff.1 h
  rw [Quantity.magnitudeIn_eq h, Measure.Unit.scale_of_div ht, scale_of_mul_hour ha]
  rfl

/-- The costs of a stream over all time steps. -/
def ofStream (catalogue : Catalogue Rat) (currency : Measure.Unit Rat) (hours : Rat)
    (costs : Quantity Rat) (s : Stream Rat) : Except (CompileError Rat) (LinearExpr Rat) := do
  let unit ← (catalogue.unitOf s.commodity).mapError .unit
  let perAmount ← (ofAmount currency unit costs).mapError .unit
  return s.flow.total.scale (perAmount * hours)

end Costs

/-- The value of a flow over all time steps. -/
theorem Flow.eval_total (f : Flow Rat) (x : Var → Rat) :
    f.total.eval x = ∑ t ∈ Finset.range f.size, (f.atStep t).eval x := by
  have hfold : ∀ l : List (LinearExpr Rat),
      (l.foldr (fun e total => total + e) 0).eval x = (l.map fun e => e.eval x).sum := by
    intro l
    induction l with
    | nil => exact LinearExpr.eval_zero x
    | cons e l ih =>
      rw [List.foldr_cons, LinearExpr.eval_add, ih, List.map_cons, List.sum_cons, add_comm]
  have hmap : f.toList.map (fun e => e.eval x) =
      (List.range f.size).map fun t => (f.atStep t).eval x := by
    apply List.ext_getElem (by simp)
    intro t h₁ h₂
    have ht : t < f.size := by simpa using h₁
    simp [Flow.atStep, ht]
  unfold Flow.total
  rw [← Array.foldr_toList, hfold, hmap]
  rfl

namespace Node

/-! ## The expenses of a node -/

section Expenses

variable (nodes : List (Node Rat)) (catalogue : Catalogue Rat) (currency hours : Rat) (steps : Nat)

def sizeExpenses (n : Node Rat) (o : Operation) : Rat :=
  match n.costs with
  | some costs =>
    if n.hasSize then
      Costs.price currency (catalogue.scaleOf (n.sizeName nodes)) costs * o.size
    else 0
  | none => 0

def storageExpenses (n : Node Rat) (o : Operation) : Rat :=
  match n.storage with
  | some s =>
    Costs.price currency (catalogue.scaleOf (n.sizeName nodes) * 3600) s.costs * o.storage.size
  | none => 0

def flowExpenses (n : Node Rat) (o : Operation) : Rat :=
  match n.inputFlowCosts with
  | some costs =>
    ((inLabels nodes n).map fun l =>
      Costs.price currency (catalogue.scaleOf l.commodity * 3600) costs * hours *
        ∑ t ∈ Finset.range steps, o.inflow t l).sum
  | none => 0

def expenses (n : Node Rat) (o : Operation) : Rat :=
  n.sizeExpenses nodes catalogue currency o + n.storageExpenses nodes catalogue currency o +
    n.flowExpenses nodes catalogue currency hours steps o

end Expenses

section Priced

variable {nodes : List (Node Rat)} {catalogue : Catalogue Rat} {currency : Measure.Unit Rat}
variable {hours : Rat} {steps : Nat} {n : Node Rat} {c : NodeCommodities} {f : NodeFlows Rat}
variable {e : LinearExpr Rat} (x : Var → Rat)

theorem eval_sizeCosts
    (h : n.Bound catalogue (outlets nodes n.name) (registry nodes steps) c f)
    (he : n.sizeCosts catalogue currency f = .ok e) :
    e.eval x = n.sizeExpenses nodes catalogue currency.scale
      (n.operation catalogue (registry nodes steps) x) := by
  unfold sizeCosts sizeUnit at he
  unfold sizeExpenses
  rw [h.size, sizeIn, h.sizeCommodity] at he
  by_cases hsize : n.hasSize = true
  · rw [if_pos hsize] at he
    cases hc : n.costs with
    | none =>
      simp only [hc, Except.ok.injEq] at he
      rw [← he]
      exact LinearExpr.eval_zero x
    | some costs =>
      rw [hc, size_eq_sizeName h.settled (by rw [hsize, Bool.true_or])] at he
      obtain ⟨unit, hu, he⟩ := bind_eq_ok_iff.1 he
      obtain ⟨rate, hrate, he⟩ := bind_eq_ok_iff.1 he
      rw [← Except.ok.inj he, LinearExpr.eval_term, Costs.ofSize_eq (mapError_eq_ok_iff.1 hrate),
        Catalogue.scale_of_unitOf (mapError_eq_ok_iff.1 hu)]
      simp only [if_pos hsize]
      rfl
  · simp only [if_neg hsize, Except.ok.injEq] at he ⊢
    rw [← he, LinearExpr.eval_zero]
    cases n.costs with
    | none => rfl
    | some costs => rfl

theorem eval_storageCosts
    (h : n.Bound catalogue (outlets nodes n.name) (registry nodes steps) c f)
    (he : n.storageCosts catalogue currency f = .ok e) :
    e.eval x = n.storageExpenses nodes catalogue currency.scale
      (n.operation catalogue (registry nodes steps) x) := by
  unfold storageCosts sizeUnit at he
  unfold storageExpenses
  rw [h.storage, storageIn, h.sizeCommodity] at he
  cases hs : n.storage with
  | none =>
    simp only [hs, Option.isSome_none, Bool.false_eq_true, if_false, Except.ok.injEq] at he
    rw [← he]
    exact LinearExpr.eval_zero x
  | some s =>
    have hst : n.storage.isSome = true := by rw [hs]; rfl
    rw [if_pos hst, hs, size_eq_sizeName h.settled (by rw [hst, Bool.or_true])] at he
    obtain ⟨unit, hu, he⟩ := bind_eq_ok_iff.1 he
    obtain ⟨rate, hrate, he⟩ := bind_eq_ok_iff.1 he
    rw [← Except.ok.inj he, LinearExpr.eval_term, Costs.ofAmount_eq (mapError_eq_ok_iff.1 hrate),
      Catalogue.scale_of_unitOf (mapError_eq_ok_iff.1 hu)]
    rfl

/-- The costs of the input flows are those of each of them. -/
theorem exists_streamCosts {costs : Quantity Rat} (hc : n.inputFlowCosts = some costs)
    (he : n.flowCosts catalogue currency hours f = .ok e) :
    ∃ es, List.Forall₂ (fun s e => Costs.ofStream catalogue currency hours costs s = .ok e)
      f.inflows es ∧ e = es.foldl (· + ·) 0 := by
  unfold flowCosts at he
  simp only [hc] at he
  refine foldlM_eq_ok_iff.1 ?_
  rw [← he]
  simp only [Costs.ofStream, bind_assoc, pure_bind]

/-- All input flows over all time steps, each at the price of its commodity. -/
theorem eval_flowCosts (hnames : ((variableKeys nodes).map (·.name)).Nodup) (hn : n ∈ nodes)
    (hk : n.inputFlowCosts.isSome = true → ¬n.kind.isInput)
    (h : n.Bound catalogue (outlets nodes n.name) (registry nodes steps) c f)
    (he : n.flowCosts catalogue currency hours f = .ok e) :
    e.eval x = n.flowExpenses nodes catalogue currency.scale hours steps
      (n.operation catalogue (registry nodes steps) x) := by
  unfold flowExpenses
  cases hc : n.inputFlowCosts with
  | none =>
    unfold flowCosts at he
    simp only [hc, Except.ok.injEq] at he
    rw [← he]
    exact LinearExpr.eval_zero x
  | some costs =>
    obtain ⟨es, hes, rfl⟩ := exists_streamCosts hc he
    have hstream : ∀ s ∈ f.inflows, s.flow.total.eval x = ∑ t ∈ Finset.range steps,
        (n.operation catalogue (registry nodes steps) x).inflow t s.label := by
      intro s hs
      obtain ⟨k, hmem, hsteps, hflow⟩ := exists_key_of_mem_inflows hn (hk (by rw [hc]; rfl)) h hs
      have hsize : s.flow.size = steps := by
        rw [hflow, Model.flowOf, Flow.ofVars, Array.size_map, size_seriesOf hnames hmem hsteps]
      rw [Flow.eval_total, hsize]
      exact Finset.sum_congr rfl fun t ht =>
        eval_inflow hnames hn h (Finset.mem_range.1 ht) s hs
    have hmap := map_eq_map_of_forall₂ ((List.forall₂_and_left _ _).2 ⟨hstream, hes⟩)
      (f := fun s => Costs.price currency.scale (catalogue.scaleOf s.label.commodity * 3600) costs *
        hours * ∑ t ∈ Finset.range steps,
          (n.operation catalogue (registry nodes steps) x).inflow t s.label)
      (g := fun e => e.eval x) fun s e hse => by
        obtain ⟨htotal, hse⟩ := hse
        obtain ⟨unit, hu, hse⟩ := bind_eq_ok_iff.1 hse
        obtain ⟨rate, hrate, hse⟩ := bind_eq_ok_iff.1 hse
        rw [← Except.ok.inj hse, LinearExpr.eval_scale, htotal,
          Costs.ofAmount_eq (mapError_eq_ok_iff.1 hrate),
          Catalogue.scale_of_unitOf (mapError_eq_ok_iff.1 hu), mul_comm]
        rfl
    rw [show es.foldl (· + ·) 0 = LinearExpr.sum es from rfl, LinearExpr.eval_sum, ← hmap,
      ← label_inflows h]
    dsimp only
    rw [List.map_map]
    rfl

theorem eval_totalCosts (hnames : ((variableKeys nodes).map (·.name)).Nodup) (hn : n ∈ nodes)
    (hk : n.inputFlowCosts.isSome = true → ¬n.kind.isInput)
    (h : n.Bound catalogue (outlets nodes n.name) (registry nodes steps) c f)
    (he : n.totalCosts catalogue currency hours f = .ok e) :
    e.eval x = n.expenses nodes catalogue currency.scale hours steps
      (n.operation catalogue (registry nodes steps) x) := by
  obtain ⟨size, hsize, he⟩ := bind_eq_ok_iff.1 he
  obtain ⟨storage, hstorage, he⟩ := bind_eq_ok_iff.1 he
  obtain ⟨flows, hflows, he⟩ := bind_eq_ok_iff.1 he
  rw [← Except.ok.inj he, LinearExpr.eval_add, LinearExpr.eval_add, LinearExpr.eval_add,
    LinearExpr.eval_zero, zero_add, eval_sizeCosts x h hsize, eval_storageCosts x h hstorage,
    eval_flowCosts x hnames hn hk h hflows]
  rfl

end Priced

theorem sizeExpenses_congr {nodes : List (Node Rat)} {catalogue : Catalogue Rat} {currency : Rat}
    {n : Node Rat} {o o' : Operation} (h : n.hasSize = true → o'.size = o.size) :
    n.sizeExpenses nodes catalogue currency o' = n.sizeExpenses nodes catalogue currency o := by
  unfold sizeExpenses
  cases n.costs with
  | none => rfl
  | some costs =>
    dsimp only
    split
    · next hsize => rw [h hsize]
    · rfl

theorem flowExpenses_congr {nodes : List (Node Rat)} (catalogue : Catalogue Rat)
    (currency hours : Rat) {steps : Nat} {n : Node Rat} {o o' : Operation}
    (h : ∀ t < steps, ∀ l ∈ inLabels nodes n, o'.inflow t l = o.inflow t l) :
    n.flowExpenses nodes catalogue currency hours steps o' =
      n.flowExpenses nodes catalogue currency hours steps o := by
  unfold flowExpenses
  cases n.inputFlowCosts with
  | none => rfl
  | some costs =>
    refine congrArg List.sum (List.map_congr_left fun l hl => ?_)
    rw [Finset.sum_congr rfl fun t ht => h t (Finset.mem_range.1 ht) l hl]

theorem expenses_congr {nodes : List (Node Rat)} {catalogue : Catalogue Rat}
    {currency hours : Rat} {steps : Nat} {n : Node Rat} {o o' : Operation}
    (h : n.Agree nodes steps o o') : n.expenses nodes catalogue currency hours steps o' =
      n.expenses nodes catalogue currency hours steps o := by
  have hstorage : n.storageExpenses nodes catalogue currency o' =
      n.storageExpenses nodes catalogue currency o := by
    unfold storageExpenses
    cases hs : n.storage with
    | none => rfl
    | some s => rw [(h.storage (by rw [hs]; rfl)).size]
  unfold expenses
  rw [sizeExpenses_congr h.size, hstorage, flowExpenses_congr _ _ _ h.inflow]

end Node

/-! ## The objective of a network -/

namespace Compiled

variable {nodes : List (Node Rat)} {grid : Grid} {config : Config Rat} {cs : List NodeCommodities}
variable {groups : List (Rows Rat)} {net : Network Rat} {currency : Measure.Unit Rat}
variable (h : Compiled nodes grid config cs groups net)

include h

theorem exists_currency :
    ∃ currency : Measure.Unit Rat, Measure.Unit.read config.currency = .ok currency := by
  obtain ⟨currency, hcurrency, -⟩ := h.costs
  exact ⟨currency, hcurrency⟩

variable (hcurrency : Measure.Unit.read config.currency = .ok currency)

include hcurrency

/-- The costs of all nodes with their flows make the objective. -/
theorem exists_costs : ∃ es, List.Forall₂ (fun p e =>
      p.1.totalCosts config.catalogue currency grid.hours p.2 = .ok e) (nodes.zip net.flows) es ∧
    net.model.objective = LinearExpr.sum es := by
  obtain ⟨currency', hcurrency', hobjective⟩ := h.costs
  obtain rfl : currency = currency' := Except.ok.inj (hcurrency.symm.trans hcurrency')
  exact objective_eq_ok_iff.1 hobjective

/-- The objective is the sum of the expenses of all nodes, whatever the assignment. -/
theorem eval_objective (hk : ∀ n ∈ nodes, n.inputFlowCosts.isSome = true → ¬n.kind.isInput)
    (x : Var → Rat) : net.model.objective.eval x = (nodes.map fun n =>
      n.expenses nodes config.catalogue currency.scale grid.hours grid.size
        (n.operation config.catalogue (registry nodes grid.size) x)).sum := by
  obtain ⟨es, hcosts, hsum⟩ := h.exists_costs hcurrency
  have hpairs : List.Forall₂ (fun p e => p ∈ nodes.zip net.flows ∧
      p.1.totalCosts config.catalogue currency grid.hours p.2 = .ok e) (nodes.zip net.flows) es :=
    (List.forall₂_and_left _ _).2 ⟨fun _ hp => hp, hcosts⟩
  have hmap := map_eq_map_of_forall₂ hpairs
    (f := fun p => p.1.expenses nodes config.catalogue currency.scale grid.hours grid.size
      (p.1.operation config.catalogue (registry nodes grid.size) x))
    (g := fun e => e.eval x) fun p e hpe => by
      obtain ⟨hp, he⟩ := hpe
      obtain ⟨c, hbound⟩ := h.bound hp
      have hn := (List.of_mem_zip hp).1
      exact (Node.eval_totalCosts x h.names_nodup hn (hk _ hn) hbound he).symm
  rw [hsum, LinearExpr.eval_sum, ← hmap]
  exact sum_map_zip_fst h.length_flows.symm fun n =>
    n.expenses nodes config.catalogue currency.scale grid.hours grid.size
      (n.operation config.catalogue (registry nodes grid.size) x)

/-- The costs of a node come to its part of the objective, each of the three kinds for itself. -/
theorem exists_costs_of_mem {n : Node Rat} (hn : n ∈ nodes) : ∃ c f size storage flows,
    n.Bound config.catalogue (outlets nodes n.name) (registry nodes grid.size) c f ∧
      n.sizeCosts config.catalogue currency f = .ok size ∧
      n.storageCosts config.catalogue currency f = .ok storage ∧
      n.flowCosts config.catalogue currency grid.hours f = .ok flows := by
  obtain ⟨es, hcosts, -⟩ := h.exists_costs hcurrency
  obtain ⟨f, hp⟩ := h.exists_flows hn
  obtain ⟨c, hbound⟩ := h.bound hp
  obtain ⟨e, -, he⟩ := exists_of_mem_forall₂ hcosts hp
  obtain ⟨size, hsize, he⟩ := bind_eq_ok_iff.1 he
  obtain ⟨storage, hstorage, he⟩ := bind_eq_ok_iff.1 he
  obtain ⟨flows, hflows, -⟩ := bind_eq_ok_iff.1 he
  exact ⟨c, f, size, storage, flows, hbound, hsize, hstorage, hflows⟩

/-- There is a price for each unit of the size of a storage. -/
theorem exists_storageRate {n : Node Rat} (hn : n ∈ nodes) {s : Storage Rat}
    (hs : n.storage = some s) : ∃ unit rate,
      config.catalogue.unitOf (n.sizeName nodes) = .ok unit ∧
      Costs.ofAmount currency unit s.costs = .ok rate := by
  obtain ⟨c, f, -, storage, -, hbound, -, he, -⟩ := h.exists_costs_of_mem hcurrency hn
  have hst : n.storage.isSome = true := by rw [hs]; rfl
  unfold Node.storageCosts Node.sizeUnit at he
  rw [hbound.storage, Node.storageIn, hbound.sizeCommodity, if_pos hst, hs,
    Node.size_eq_sizeName hbound.settled (by rw [hst, Bool.or_true])] at he
  obtain ⟨unit, hu, he⟩ := bind_eq_ok_iff.1 he
  obtain ⟨rate, hrate, -⟩ := bind_eq_ok_iff.1 he
  exact ⟨unit, rate, mapError_eq_ok_iff.1 hu, mapError_eq_ok_iff.1 hrate⟩

end Compiled

end SupplyNet
