import Mathlib
import SupplyNet.Proofs.Network.Exact
import SupplyNet.Proofs.Network.Parts
import SupplyNet.Proofs.Network.Permutation
import SupplyNet.Proofs.Network.RescaledRows

/-!
The units of the commodities do not count. With other units of the same dimensions the same nodes
make the same network, in which every column is multiplied by the factor of its commodity.
-/
set_option autoImplicit false

namespace SupplyNet

variable {nodes : List (Node Rat)} {grid : Grid} {config : Config Rat} {n : Node Rat}
variable {currency : Measure.Unit Rat} {catalogue' : Catalogue Rat} {p : Part Rat}
variable {parts parts' : List (Part Rat)} {σ : Var → Rat}

/-! ## Parts -/

/-- The conditions and the costs of a node in other units. -/
structure Part.Rescaled (σ : Var → Rat) (p p' : Part Rat) : Prop where
  rows : List.Forall₂ (List.Forall₂ (Constraint.Rescaled σ)) p.rows p'.rows
  costs : p.costs.Rescaled σ 1 p'.costs

theorem Recounting.symm {catalogue : Catalogue Rat} (h : Recounting nodes catalogue catalogue') :
    Recounting nodes catalogue' catalogue :=
  ⟨h.wired, h.names_nodup, h.built, h.measured, h.comparable.symm, h.formed', h.formed⟩

/-- No condition of a node is lost. -/
theorem Recounting.exact {catalogue : Catalogue Rat} (h : Recounting nodes catalogue catalogue')
    (hn : n ∈ nodes) {c : NodeCommodities} {f : NodeFlows Rat} {steps : Nat} {hours : Rat}
    (hb : n.Bound catalogue (outlets nodes n.name) (registry nodes steps) c f)
    {rows : List (Rows Rat)} (hrows : n.rows catalogue steps hours f = rows.map .ok) :
    ∀ d ∈ rows.flatten, d.Exact := by
  exact Node.exact_of_rows h.names_nodup hn hb h.wired (h.built n hn) hrows

theorem exact_of_makes (hmakes : List.Forall₂ (Node.Makes nodes grid config currency) nodes parts)
    (h : Recounting nodes config.catalogue catalogue') :
    ∀ d ∈ (parts.flatMap (·.rows)).flatten, d.Exact := by
  have hall : ∀ p ∈ parts, ∀ d ∈ p.rows.flatten, d.Exact :=
    (Matched.of_forall₂ hmakes).forall_mem fun n hn p hp =>
      h.exact hn (hp.bound h.wired hn) hp.rows
  intro d hd
  obtain ⟨rows, hrows, hd⟩ := List.mem_flatten.1 hd
  obtain ⟨p, hp, hrows⟩ := List.mem_flatMap.1 hrows
  exact hall p hp d (List.mem_flatten.2 ⟨rows, hrows, hd⟩)

/-- Each node makes its part in both units. -/
theorem Recounting.exists_part (h : Recounting nodes config.catalogue catalogue') (hn : n ∈ nodes)
    (hσ : σ = (registry nodes grid.size).columnFactor nodes (config.catalogue.factor catalogue'))
    (hp : n.Makes nodes grid config currency p) :
    ∃ p', n.Makes nodes grid { config with catalogue := catalogue' } currency p' ∧
      p.Rescaled σ p' := by
  have hb := hp.bound h.wired hn
  have hk := h.wired.not_isOutput_of_served hn
  obtain ⟨f', hb', hf⟩ := h.exists_bound hσ hn hb
  have hcarries := h.carries_rows hn hf hb
    (oneCommodityEach_inStreams (h.inputs_nodup n hn) hb.inflows)
    (oneCommodityEach_outStreams h.wired h.inputs_nodup hb.outflows) grid.hours
  rw [hp.rows] at hcarries
  obtain ⟨rows', hrows', hrows⟩ := Carries.exists_map_ok hcarries
  obtain ⟨costs', hcosts', hcosts⟩ := h.carries_totalCosts hn hf currency grid.hours _ hp.costs
  have hf' : f' = ⟨n.sizeIn (registry nodes grid.size), p.commodities.size,
      n.storageIn (registry nodes grid.size), f'.inflows, f'.outflows⟩ := by
    rw [← hb'.size, ← hb'.sizeCommodity, ← hb'.storage]
  have hflows := (Node.flowsIn_eq_ok_iff hb'.settled hk).2
    ⟨f'.inflows, f'.outflows, hb'.inflows, hb'.outflows, hf'⟩
  have hexact := h.symm.exact hn hb' hrows'
  exact ⟨⟨p.commodities, f', rows', costs'⟩,
    ⟨hb'.settled, hflows, hrows', fun d hd => (hexact d hd).admissible, hcosts'⟩, hrows, hcosts⟩

theorem rescaled_assembled {config' : Config Rat}
    (hparts : List.Forall₂ (Part.Rescaled σ) parts parts')
    (hexact : ∀ c ∈ (parts.flatMap (·.rows)).flatten, c.Exact)
    (hexact' : ∀ c ∈ (parts'.flatMap (·.rows)).flatten, c.Exact) :
    (Network.assembled nodes grid config parts).model.Rescaled σ
      (Network.assembled nodes grid config' parts').model := by
  have hrows : List.Forall₂ (Constraint.Rescaled σ) (parts.flatMap (·.rows)).flatten
      (parts'.flatMap (·.rows)).flatten :=
    List.rel_flatten (List.rel_flatMap hparts fun _ _ hp => hp.rows)
  have hcosts : (LinearExpr.sum (parts.map (·.costs))).Rescaled σ 1
      (.sum (parts'.map (·.costs))) :=
    .sum (List.forall₂_map_left_iff.2 (List.forall₂_map_right_iff.2
      (hparts.imp fun _ _ hp => hp.costs)))
  refine ⟨rfl, fun x => ?_, fun x => (hcosts x).trans (one_mul _)⟩
  simp only [Network.assembled, List.mem_toArray]
  rw [Constraint.forall_stored_holds_iff hexact, Constraint.forall_stored_holds_iff hexact',
    Constraint.Rescaled.forall_holds_iff hrows]

/-! ## Networks -/

namespace Network

variable (hbuilt : ∀ n ∈ nodes, n.Built) (hmeasured : ∀ n ∈ nodes, n.Measured nodes)

include hbuilt hmeasured

theorem exists_recounted (hcomparable : config.catalogue.Comparable catalogue')
    (hformed : config.catalogue.Formed) (hformed' : catalogue'.Formed) {net : Network Rat}
    (hnet : build nodes grid config = .ok net) :
    ∃ net', build nodes grid { config with catalogue := catalogue' } = .ok net' ∧
      net.model.Rescaled (net.model.columnFactor nodes (config.catalogue.factor catalogue'))
        net'.model := by
  obtain ⟨hw, hv, hnames, currency, parts, hcurrency, hmakes, rfl⟩ := build_eq_ok_iff_parts.1 hnet
  have h : Recounting nodes config.catalogue catalogue' :=
    ⟨hw, hnames, hbuilt, hmeasured, hcomparable, hformed, hformed'⟩
  obtain ⟨parts', hmakes', hparts⟩ := exists_forall₂_of_forall₂ hmakes fun n hn p hp =>
    h.exists_part hn rfl hp
  exact ⟨.assembled nodes grid { config with catalogue := catalogue' } parts',
    build_eq_ok_iff_parts.2 ⟨hw, hv, hnames, currency, parts', hcurrency, hmakes', rfl⟩,
    rescaled_assembled hparts (exact_of_makes hmakes h) (exact_of_makes hmakes' h.symm)⟩

/-- The choice of units does not matter. With two catalogues of the same commodities in units of the
same dimensions, a network is built with both or with none, and then an assignment is feasible at
some costs in the one exactly if it is so in the other after every column has been multiplied by the
factor of its commodity. -/
theorem build_recounted (grid : Grid) (config : Config Rat)
    (hcomparable : config.catalogue.Comparable catalogue') (hformed : config.catalogue.Formed)
    (hformed' : catalogue'.Formed) :
    ((∃ net, build nodes grid config = .ok net) ↔
      ∃ net', build nodes grid { config with catalogue := catalogue' } = .ok net') ∧
    ∀ net net', build nodes grid config = .ok net →
      build nodes grid { config with catalogue := catalogue' } = .ok net' →
      net'.model.columns = net.model.columns ∧
      ∀ (x : Var → Rat) (z : Rat),
        net.model.program.Feasible x ∧ net.model.objective.eval x = z ↔
          net'.model.program.Feasible (rescale
            (net.model.columnFactor nodes (config.catalogue.factor catalogue')) x) ∧
          net'.model.objective.eval (rescale
            (net.model.columnFactor nodes (config.catalogue.factor catalogue')) x) = z := by
  refine ⟨⟨?_, ?_⟩, fun net net' hnet hnet' => ?_⟩
  · rintro ⟨net, hnet⟩
    obtain ⟨net', hnet', -⟩ :=
      exists_recounted hbuilt hmeasured hcomparable hformed hformed' hnet
    exact ⟨net', hnet'⟩
  · rintro ⟨net', hnet'⟩
    obtain ⟨net, hnet, -⟩ :=
      exists_recounted hbuilt hmeasured hcomparable.symm hformed' hformed hnet'
    exact ⟨net, hnet⟩
  · obtain ⟨net'', hnet'', hmodel⟩ :=
      exists_recounted hbuilt hmeasured hcomparable hformed hformed' hnet
    obtain rfl : net'' = net' := Except.ok.inj (hnet''.symm.trans hnet')
    obtain ⟨cs, groups, hc⟩ := build_eq_ok_iff.1 hnet
    obtain ⟨cs', groups', hc'⟩ := build_eq_ok_iff.1 hnet'
    refine ⟨hmodel.columns, fun x z => ?_⟩
    have hpos := net.model.columnFactor_pos
      (Catalogue.factor_pos hformed hformed') nodes
    have hcolumns : ∀ v, 0 ≤ rescale
        (net.model.columnFactor nodes (config.catalogue.factor catalogue')) x v ↔ 0 ≤ x v :=
      fun v => mul_nonneg_iff_of_pos_left (hpos v)
    rw [hc.feasible_iff, hc'.feasible_iff, hmodel.columns, hmodel.constraints, hmodel.objective]
    simp only [hcolumns]

end Network

/-! ## Gas of wind -/

/-- A magnitude in a unit that is read from a text. -/
def Quantity.ofText (magnitude : Rat) (unit : String) : Quantity Rat :=
  ⟨magnitude, (Measure.Unit.read unit).toOption⟩

def gasBattery : Storage Rat :=
  { windBattery with costs := .ofText 2 "EUR/kWh", costs_nonneg := by decide +kernel }

/-- A wind farm that supplies a town with gas. -/
def gasDrafts : List (Draft Rat) :=
  [{ name := "wind", role := .scalableInput (.constant windGrid (1 / 2)),
      costs := some (.ofText 900 "kEUR/MW") },
    { name := "hub", role := .generic ⟨["wind"], .single "electricity"⟩,
      storage := some gasBattery },
    { name := "plant", role := .generic ⟨["hub"], .single "electricity"⟩,
      costs := some (.ofText 300 "EUR/kW"), convertFactor := some (.ofText 600 "kW/MW"),
      inputFlowCosts := some (.ofText 3 "EUR/MWh") },
    { name := "town",
      role := .fixedOutput ⟨["plant"], .single "gas"⟩
        { Series.constant windGrid 5 with unit := (Measure.Unit.read "MW").toOption } }]

def kilowatt : Measure.Unit Rat := ⟨⟨1e3, .ofPower⟩, "kW"⟩

def gigawatt : Measure.Unit Rat := ⟨⟨1e9, .ofPower⟩, "GW"⟩

/-- Electricity in kilowatts and gas in gigawatts. -/
def mixedCatalogue : Catalogue Rat :=
  ⟨.ofList [("electricity", kilowatt), ("co2", Catalogue.tonnePerHour),
    ("hydrogen", Catalogue.tonnePerHour), ("gas", gigawatt), ("methanol", Catalogue.tonnePerHour)]⟩

theorem formed_mixedCatalogue : mixedCatalogue.Formed := by
  apply Catalogue.formed_ofList
  simp only [List.forall_mem_cons, List.not_mem_nil, false_implies, implies_true, and_true]
  exact ⟨.known (show Measure.Gauge.known? "kW" = some _ from rfl), Catalogue.formed_tonnePerHour,
    Catalogue.formed_tonnePerHour, .known (show Measure.Gauge.known? "GW" = some _ from rfl),
    Catalogue.formed_tonnePerHour⟩

/-- The same town in megawatts, or in kilowatts and gigawatts. -/
theorem recounted_of_gasNetwork :
    ∃ net net', Network.build (builtNodes gasDrafts) windGrid .standard = .ok net ∧
      Network.build (builtNodes gasDrafts) windGrid
        { Config.standard with catalogue := mixedCatalogue } = .ok net' ∧
      net'.model.columns = net.model.columns ∧
      ∀ (x : Var → Rat) (z : Rat),
        net.model.program.Feasible x ∧ net.model.objective.eval x = z ↔
          net'.model.program.Feasible (rescale (net.model.columnFactor (builtNodes gasDrafts)
            (Config.standard.catalogue.factor mixedCatalogue)) x) ∧
          net'.model.objective.eval (rescale (net.model.columnFactor (builtNodes gasDrafts)
            (Config.standard.catalogue.factor mixedCatalogue)) x) = z := by
  have hmeasured : ∀ n ∈ builtNodes gasDrafts, n.Measured (builtNodes gasDrafts) := by
    decide +kernel
  have hcomparable : (Config.standard : Config Rat).catalogue.Comparable mixedCatalogue :=
    Catalogue.comparable_of_dimensions (by decide +kernel)
  obtain ⟨hiff, hsame⟩ := Network.build_recounted (fun _ hn => built_of_mem hn) hmeasured windGrid
    .standard hcomparable Catalogue.formed_standard formed_mixedCatalogue
  obtain ⟨net, hnet⟩ : ∃ net, Network.build (builtNodes gasDrafts) windGrid .standard = .ok net :=
    exists_of_isOk (by decide +kernel)
  obtain ⟨net', hnet'⟩ := hiff.1 ⟨net, hnet⟩
  obtain ⟨hcolumns, hfeasible⟩ := hsame net net' hnet hnet'
  exact ⟨net, net', hnet, hnet', hcolumns, hfeasible⟩

end SupplyNet
