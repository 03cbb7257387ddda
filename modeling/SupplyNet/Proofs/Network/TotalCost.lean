import Mathlib
import SupplyNet.Proofs.Network.Expenses
import SupplyNet.Proofs.Network.Recounting

/-!
The total cost of a network. Its objective adds up what the sizes cost, what the storages cost and
what the input flows cost, each at its price in the currency of the network. A price without a unit
is taken as it is.
-/
set_option autoImplicit false

namespace SupplyNet

/-! ## Items that have something -/

/-- The items that have something, each with what it has. -/
def having {α β : Type} (f : α → Option β) (l : List α) : List (α × β) :=
  l.filterMap fun a => (f a).map fun b => (a, b)

theorem mem_having {α β : Type} {f : α → Option β} {l : List α} {p : α × β} :
    p ∈ having f l ↔ p.1 ∈ l ∧ f p.1 = some p.2 := by
  unfold having
  simp only [List.mem_filterMap, Option.map_eq_some_iff]
  constructor
  · rintro ⟨a, ha, b, hb, rfl⟩
    exact ⟨ha, hb⟩
  · rintro ⟨ha, hb⟩
    exact ⟨p.1, ha, p.2, hb, rfl⟩

/-- Items that have nothing add nothing to a sum. -/
theorem sum_map_having {α β : Type} (f : α → Option β) (g : α → β → Rat) (l : List α) :
    ((having f l).map fun p => g p.1 p.2).sum = (l.map fun a => (f a).elim 0 (g a)).sum := by
  induction l with
  | nil => rfl
  | cons a r ih =>
    unfold having at ih ⊢
    rw [List.filterMap_cons, List.map_cons, List.sum_cons, ← ih]
    cases f a with
    | none => exact (zero_add _).symm
    | some b => rfl

/-! ## Prices in the currency -/

/-- What a unit of a commodity costs. -/
def Catalogue.unitPrice (catalogue : Catalogue Rat) (currency : Measure.Unit Rat)
    (commodity : String) (costs : Quantity Rat) : Rat :=
  Costs.price currency.scale (catalogue.scaleOf commodity) costs

/-- What a unit of a commodity costs if it lasts an hour. -/
def Catalogue.hourPrice (catalogue : Catalogue Rat) (currency : Measure.Unit Rat)
    (commodity : String) (costs : Quantity Rat) : Rat :=
  Costs.price currency.scale (catalogue.scaleOf commodity * 3600) costs

theorem Costs.price_of_plain {costs : Quantity Rat} (h : costs.unit = none)
    (currency scale : Rat) : price currency scale costs = costs.magnitude := by
  rw [price, h]
  exact mul_one _

section Prices

variable {catalogue : Catalogue Rat} {currency unit : Measure.Unit Rat} {commodity : String}
variable {costs : Quantity Rat} {rate : Rat}

/-- Costs of a size convert to the price for a unit of its commodity, if they convert at all. -/
theorem exists_unitPrice (hunit : catalogue.unitOf commodity = .ok unit)
    (hrate : Costs.ofSize currency unit costs = .ok rate) :
    ∃ unit, catalogue.unitOf commodity = .ok unit ∧
      Costs.ofSize currency unit costs = .ok (catalogue.unitPrice currency commodity costs) := by
  refine ⟨unit, hunit, ?_⟩
  rw [hrate, Costs.ofSize_eq hrate, Catalogue.scale_of_unitOf hunit]
  rfl

/-- So do costs of an amount, for which a unit lasts an hour. -/
theorem exists_hourPrice (hunit : catalogue.unitOf commodity = .ok unit)
    (hrate : Costs.ofAmount currency unit costs = .ok rate) :
    ∃ unit, catalogue.unitOf commodity = .ok unit ∧
      Costs.ofAmount currency unit costs = .ok (catalogue.hourPrice currency commodity costs) := by
  refine ⟨unit, hunit, ?_⟩
  rw [hrate, Costs.ofAmount_eq hrate, Catalogue.scale_of_unitOf hunit]
  rfl

end Prices

namespace Node

/-- The costs of a node with a size. -/
def costsOfSize (n : Node Rat) : Option (Quantity Rat) :=
  if n.hasSize then n.costs else none

section Expenses

variable {nodes : List (Node Rat)} {catalogue : Catalogue Rat} {currency : Measure.Unit Rat}
variable {hours : Rat} {steps : Nat} {n : Node Rat} {o : Operation}

theorem sizeExpenses_eq : n.sizeExpenses nodes catalogue currency.scale o =
    n.costsOfSize.elim 0 fun costs =>
      o.size * catalogue.unitPrice currency (n.sizeName nodes) costs := by
  unfold sizeExpenses costsOfSize
  cases hsize : n.hasSize <;> cases n.costs
  · rfl
  · rfl
  · rfl
  · exact mul_comm _ _

theorem storageExpenses_eq : n.storageExpenses nodes catalogue currency.scale o =
    n.storage.elim 0 fun s =>
      o.storage.size * catalogue.hourPrice currency (n.sizeName nodes) s.costs := by
  unfold storageExpenses
  cases n.storage with
  | none => rfl
  | some s => exact mul_comm _ _

theorem flowExpenses_eq : n.flowExpenses nodes catalogue currency.scale hours steps o =
    n.inputFlowCosts.elim 0 fun costs => hours * ((inLabels nodes n).map fun l =>
      ∑ t ∈ Finset.range steps,
        o.inflow t l * catalogue.hourPrice currency l.commodity costs).sum := by
  unfold flowExpenses
  cases n.inputFlowCosts with
  | none => rfl
  | some costs =>
    rw [Option.elim_some, ← List.sum_map_mul_left]
    refine congrArg List.sum (List.map_congr_left fun l _ => ?_)
    rw [← Finset.sum_mul, Catalogue.hourPrice]
    ring

end Expenses

end Node

/-! ## The total cost of a network -/

section Total

variable (nodes : List (Node Rat)) (catalogue : Catalogue Rat) (currency : Measure.Unit Rat)

/-- The costs of all sizes, of all storages and of all input flows under an assignment. -/
def totalCost (grid : Grid) (m : Model Rat) (x : Var → Rat) : Rat :=
  ((having Node.costsOfSize nodes).map fun p =>
    x (m.scalarOf (.size p.1.name)) *
      catalogue.unitPrice currency (p.1.sizeName nodes) p.2).sum +
  ((having Node.storage nodes).map fun p =>
    x (m.scalarOf (.storageSize p.1.name)) *
      catalogue.hourPrice currency (p.1.sizeName nodes) p.2.costs).sum +
  ((having Node.inputFlowCosts nodes).map fun p =>
    grid.hours * ((p.1.inLabels nodes).map fun l => ∑ t ∈ Finset.range grid.size,
      p.1.inflowOf catalogue m x t l * catalogue.hourPrice currency l.commodity p.2).sum).sum

/-- All costs convert to the prices that make the total cost. -/
structure Priced : Prop where
  size : ∀ p ∈ having Node.costsOfSize nodes, ∃ unit,
    catalogue.unitOf (p.1.sizeName nodes) = .ok unit ∧
    Costs.ofSize currency unit p.2 =
      .ok (catalogue.unitPrice currency (p.1.sizeName nodes) p.2)
  storage : ∀ p ∈ having Node.storage nodes, ∃ unit,
    catalogue.unitOf (p.1.sizeName nodes) = .ok unit ∧
    Costs.ofAmount currency unit p.2.costs =
      .ok (catalogue.hourPrice currency (p.1.sizeName nodes) p.2.costs)
  flow : ∀ p ∈ having Node.inputFlowCosts nodes, ∀ l ∈ p.1.inLabels nodes, ∃ unit,
    catalogue.unitOf l.commodity = .ok unit ∧
    Costs.ofAmount currency unit p.2 = .ok (catalogue.hourPrice currency l.commodity p.2)

variable {nodes catalogue currency}

theorem sum_map_expenses (grid : Grid) (m : Model Rat) (x : Var → Rat) :
    (nodes.map fun n => n.expenses nodes catalogue currency.scale grid.hours grid.size
      (n.operation catalogue m x)).sum = totalCost nodes catalogue currency grid m x := by
  unfold Node.expenses totalCost
  rw [List.sum_map_add, List.sum_map_add]
  simp only [Node.sizeExpenses_eq, Node.storageExpenses_eq, Node.flowExpenses_eq]
  exact congrArg₂ _ (congrArg₂ _ (sum_map_having _ _ nodes).symm (sum_map_having _ _ nodes).symm)
    (sum_map_having _ _ nodes).symm

end Total

/-! ## The prices of a network -/

section Network

variable {nodes : List (Node Rat)} {grid : Grid} {config : Config Rat} {net : Network Rat}
variable {cs : List NodeCommodities} {groups : List (Rows Rat)} {currency : Measure.Unit Rat}
variable {n : Node Rat} {costs : Quantity Rat}

namespace Compiled

variable (h : Compiled nodes grid config cs groups net)
variable (hcurrency : Measure.Unit.read config.currency = .ok currency)

include h hcurrency

theorem ofSize_costs (hn : n ∈ nodes) (hcosts : n.costsOfSize = some costs) :
    ∃ unit, config.catalogue.unitOf (n.sizeName nodes) = .ok unit ∧
      Costs.ofSize currency unit costs =
        .ok (config.catalogue.unitPrice currency (n.sizeName nodes) costs) := by
  obtain ⟨c, f, size, -, -, hbound, he, -, -⟩ := h.exists_costs_of_mem hcurrency hn
  unfold Node.costsOfSize at hcosts
  split at hcosts
  · next hsize =>
    unfold Node.sizeCosts Node.sizeUnit at he
    rw [hbound.size, Node.sizeIn, if_pos hsize, hcosts, hbound.sizeCommodity,
      Node.size_eq_sizeName hbound.settled (by rw [hsize, Bool.true_or])] at he
    obtain ⟨unit, hu, he⟩ := bind_eq_ok_iff.1 he
    obtain ⟨rate, hrate, -⟩ := bind_eq_ok_iff.1 he
    exact exists_unitPrice (mapError_eq_ok_iff.1 hu) (mapError_eq_ok_iff.1 hrate)
  · exact absurd hcosts (by simp)

theorem ofAmount_storage {s : Storage Rat} (hn : n ∈ nodes) (hs : n.storage = some s) :
    ∃ unit, config.catalogue.unitOf (n.sizeName nodes) = .ok unit ∧
      Costs.ofAmount currency unit s.costs =
        .ok (config.catalogue.hourPrice currency (n.sizeName nodes) s.costs) := by
  obtain ⟨unit, rate, hunit, hrate⟩ := h.exists_storageRate hcurrency hn hs
  exact exists_hourPrice hunit hrate

theorem ofAmount_flows (hn : n ∈ nodes) (hcosts : n.inputFlowCosts = some costs) {l : Label}
    (hl : l ∈ Node.inLabels nodes n) :
    ∃ unit, config.catalogue.unitOf l.commodity = .ok unit ∧
      Costs.ofAmount currency unit costs =
        .ok (config.catalogue.hourPrice currency l.commodity costs) := by
  obtain ⟨c, f, -, -, flows, hbound, -, -, he⟩ := h.exists_costs_of_mem hcurrency hn
  rw [← Node.label_inflows hbound] at hl
  obtain ⟨s, hs, rfl⟩ := List.mem_map.1 hl
  obtain ⟨es, hes, -⟩ := Node.exists_streamCosts hcosts he
  obtain ⟨e, -, he⟩ := exists_of_mem_forall₂ hes hs
  obtain ⟨unit, hu, he⟩ := bind_eq_ok_iff.1 he
  obtain ⟨rate, hrate, -⟩ := bind_eq_ok_iff.1 he
  exact exists_hourPrice (mapError_eq_ok_iff.1 hu) (mapError_eq_ok_iff.1 hrate)

theorem priced : Priced nodes config.catalogue currency where
  size _ hp := h.ofSize_costs hcurrency (mem_having.1 hp).1 (mem_having.1 hp).2
  storage _ hp := h.ofAmount_storage hcurrency (mem_having.1 hp).1 (mem_having.1 hp).2
  flow _ hp _ hl := h.ofAmount_flows hcurrency (mem_having.1 hp).1 (mem_having.1 hp).2 hl

end Compiled

/-- The objective of a network is its total cost, whatever the assignment. All costs convert to
prices in its currency, and plain numbers are prices already. -/
theorem Network.objective_eq_totalCost (hbuilt : ∀ n ∈ nodes, n.Built)
    (h : Network.build nodes grid config = .ok net) :
    ∃ currency : Measure.Unit Rat, Measure.Unit.read config.currency = .ok currency ∧
      (∀ x : Var → Rat, net.model.objective.eval x =
        totalCost nodes config.catalogue currency grid net.model x) ∧
      Priced nodes config.catalogue currency ∧
      ∀ (costs : Quantity Rat) (commodity : String), costs.unit = none →
        config.catalogue.unitPrice currency commodity costs = costs.magnitude ∧
        config.catalogue.hourPrice currency commodity costs = costs.magnitude := by
  obtain ⟨cs, groups, hc⟩ := Network.build_eq_ok_iff.1 h
  obtain ⟨currency, hcurrency⟩ := hc.exists_currency
  refine ⟨currency, hcurrency, fun x => ?_, hc.priced hcurrency, fun costs _ hplain =>
    ⟨Costs.price_of_plain hplain _ _, Costs.price_of_plain hplain _ _⟩⟩
  rw [hc.eval_objective hcurrency fun n hn => (hbuilt n hn).not_isInput_of_flowCosts,
    sum_map_expenses, hc.model]
  rfl

end Network

/-- A wind farm and a plant pay for their sizes, a hub for its storage and the plant for its input
flow, in kilowatts and megawatts. -/
theorem totalCost_of_gasNetwork :
    (∀ n ∈ builtNodes gasDrafts, n.Built) ∧
    (having Node.costsOfSize (builtNodes gasDrafts)).map (fun p => p.1.name) = ["wind", "plant"] ∧
    (having Node.storage (builtNodes gasDrafts)).map (fun p => p.1.name) = ["hub"] ∧
    (having Node.inputFlowCosts (builtNodes gasDrafts)).map (fun p => p.1.name) = ["plant"] ∧
    ∃ (net : Network Rat) (currency : Measure.Unit Rat),
      Network.build (builtNodes gasDrafts) windGrid .standard = .ok net ∧
      Measure.Unit.read (Config.standard : Config Rat).currency = .ok currency ∧
      Priced (builtNodes gasDrafts) Config.standard.catalogue currency ∧
      ∀ x : Var → Rat, net.model.objective.eval x =
        totalCost (builtNodes gasDrafts) Config.standard.catalogue currency windGrid net.model x := by
  have hbuilt : ∀ n ∈ builtNodes gasDrafts, n.Built := fun _ hn => built_of_mem hn
  obtain ⟨net, h⟩ : ∃ net, Network.build (builtNodes gasDrafts) windGrid .standard = .ok net :=
    exists_of_isOk (by decide +kernel)
  obtain ⟨currency, hcurrency, hobjective, hpriced, -⟩ := Network.objective_eq_totalCost hbuilt h
  exact ⟨hbuilt, by decide +kernel, by decide +kernel, by decide +kernel, net, currency, h, hcurrency,
    hpriced, hobjective⟩

end SupplyNet
