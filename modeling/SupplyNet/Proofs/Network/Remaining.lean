import Mathlib
import SupplyNet.Proofs.Failing
import SupplyNet.Proofs.Network.Complete
import SupplyNet.Proofs.Network.Costs
import SupplyNet.Proofs.Network.Exact

/-!
What may still fail once the commodities of a network are settled: its units and the names of its
variables. Nothing is missing or ambiguous then, and nothing is divided by zero.
-/
set_option autoImplicit false

namespace SupplyNet

variable {K : Type} [Scalar K]

/-! ## What remains -/

/-- All quantities that a node is given. -/
def Node.quantities (n : Node K) : List (Quantity K) :=
  n.convertFactor :: (n.costs.toList ++ n.inputFlowCosts.toList ++
    n.storage.toList.map (·.costs) ++
    n.conversions.toList.flatMap (·.values.map (·.factor)) ++
    n.inputProportions.toList.flatMap (·.values) ++
    n.outputProportions.toList.flatMap (·.values))

/-- The units that a node is given. -/
def Node.units (n : Node K) : List (Measure.Unit K) :=
  (n.role.profile?.bind (·.unit)).toList ++ n.quantities.filterMap (·.unit)

/-- The units that are asked for: those of the commodities and the currency, and what is made of
them. -/
inductive Measured (config : Config K) : Measure.Unit K → Prop
  | one : Measured config .one
  | hour : Measured config Costs.hour
  | commodity {commodity : String} {u : Measure.Unit K}
      (h : config.catalogue.unitOf commodity = .ok u) : Measured config u
  | currency {u : Measure.Unit K} (h : Measure.Unit.read config.currency = .ok u) :
      Measured config u
  | mul {a b u : Measure.Unit K} (ha : Measured config a) (hb : Measured config b)
      (h : a.mul b = .ok u) : Measured config u
  | div {a b u : Measure.Unit K} (ha : Measured config a) (hb : Measured config b)
      (h : a.div b = .ok u) : Measured config u

/-- The failures that remain: a unit of another dimension than that which is asked for, a product or
quotient whose dimension cannot be counted, a factor in a unit although its inputs are mixed, a
currency that cannot be read, and variables of one name. -/
inductive Remaining (nodes : List (Node K)) (config : Config K) : CompileError K → Prop
  | dimension {n : Node K} {a b : Measure.Unit K} (hn : n ∈ nodes) (ha : a ∈ n.units)
      (hb : Measured config b) (h : a.dimension ≠ b.dimension) :
      Remaining nodes config (.unit (.incompatible a.symbol b.symbol))
  | product {a b : Measure.Unit K} {symbol : String} (ha : Measured config a)
      (hb : Measured config b) (h : a.mul b = .error (.exponentOutOfRange symbol)) :
      Remaining nodes config (.unit (.exponentOutOfRange symbol))
  | quotient {a b : Measure.Unit K} {symbol : String} (ha : Measured config a)
      (hb : Measured config b) (h : a.div b = .error (.exponentOutOfRange symbol)) :
      Remaining nodes config (.unit (.exponentOutOfRange symbol))
  | mixedInputs {n : Node K} (hn : n ∈ nodes) (hconversions : n.conversions = none)
      (hunit : n.convertFactor.unit.isSome = true)
      (hmixed : 1 < (distinct n.inputCommodities).length) :
      Remaining nodes config (.mixedInputs n.name)
  | currency {fault : Measure.Fault}
      (h : Measure.Unit.read (K := K) config.currency =
        .error (.malformed config.currency fault)) :
      Remaining nodes config (.unit (.malformed config.currency fault))
  | duplicate {name : String} (h : ¬((variableKeys nodes).map (·.name)).Nodup) :
      Remaining nodes config (.model (.duplicate name))

section Remaining

variable {nodes : List (Node K)} {config : Config K} {e : CompileError K}

namespace Remaining

/-- Only units and the names of variables remain. -/
theorem kind_eq (h : Remaining nodes config e) :
    e.kind = .invalidUnit ∨ e.kind = .internal ∧ ∃ name, e = .model (.duplicate name) := by
  cases h with
  | duplicate h => exact .inr ⟨rfl, _, rfl⟩
  | _ => exact .inl rfl

theorem kind_ne (h : Remaining nodes config e) {kind : ErrorKind} (hunit : kind ≠ .invalidUnit)
    (hinternal : kind ≠ .internal) : e.kind ≠ kind := by
  rintro rfl
  exact h.kind_eq.elim hunit fun hkind => hinternal hkind.1

theorem duplicate_of_internal (h : Remaining nodes config e) (hkind : e.kind = .internal) :
    ∃ name, e = .model (.duplicate name) := by
  rcases h.kind_eq with hunit | ⟨-, hname⟩
  · exact absurd (hunit.symm.trans hkind) (by decide)
  · exact hname

theorem ne_noUnit (h : Remaining nodes config e) (commodity : String) :
    e ≠ .unit (.noUnit commodity) := by
  rintro rfl
  cases h

end Remaining

end Remaining

/-! ## Divisors -/

/-- What is divided by while a model is set up: the length of a step in hours, the scale of a unit
that is asked for, a ratio, and, while the currency is read, what follows a division and the power
of which a negative one is the reciprocal. -/
inductive Divisor (config : Config Rat) (grid : Grid) : Rat → Prop
  | hours : Divisor config grid grid.hours
  | scale {u : Measure.Unit Rat} (h : Measured config u) : Divisor config grid u.scale
  | ratio {n : Node Rat} {side : Direction} {streams : List (Stream Rat)} {byCommodity : Bool}
      {key : String} {ratio : Quantity Rat} {group : Node.ProportionGroup Rat}
      (h : n.proportionGroup config.catalogue side streams byCommodity key ratio = .ok group) :
      Divisor config grid group.ratio
  | read {s : List Char} {g : Measure.Gauge Rat} {r : Measure.Rest s}
      (h : Measure.Reader.term s = .ok (g, r)) : Divisor config grid g.scale
  | power {s : List Char} {g : Measure.Gauge Rat} {r : Measure.Rest s} (k : Nat)
      (h : Measure.Reader.atom s = .ok (g, r)) : Divisor config grid (Scalar.mulPow 1 g.scale k)

theorem Measured.formed {config : Config Rat} (hcatalogue : config.catalogue.Formed)
    {u : Measure.Unit Rat} (h : Measured config u) : u.Formed := by
  induction h with
  | one => exact .one
  | hour => exact formed_hour
  | commodity h => exact hcatalogue.of_unitOf h
  | currency h => exact Measure.Unit.formed_of_read h
  | mul _ _ h ha hb => exact ha.mul hb h
  | div _ _ h ha hb => exact ha.div hb h

theorem Node.ratio_pos_of_proportionGroup {n : Node K} {catalogue : Catalogue K} {side : Direction}
    {streams : List (Stream K)} {byCommodity : Bool} {key : String} {ratio : Quantity K}
    {group : ProportionGroup K}
    (h : n.proportionGroup catalogue side streams byCommodity key ratio = .ok group) :
    0 < group.ratio := by
  unfold proportionGroup at h
  dsimp only at h
  split at h
  · cases h
  · obtain ⟨unit, -, h⟩ := bind_eq_ok_iff.1 h
    obtain ⟨value, -, h⟩ := bind_eq_ok_iff.1 h
    split at h
    · next hpos =>
      rw [← Except.ok.inj h]
      exact hpos
    · cases h

theorem Divisor.pos {config : Config Rat} {grid : Grid} (hcatalogue : config.catalogue.Formed)
    {q : Rat} (h : Divisor config grid q) : 0 < q := by
  cases h with
  | hours => exact grid.hours_pos
  | scale h => exact (h.formed hcatalogue).scale_pos
  | ratio h => exact Node.ratio_pos_of_proportionGroup h
  | read h => exact (Measure.Reader.formed_of_term h).scale_pos
  | power k h =>
    exact Measure.mulPow_pos 1 _ k one_pos (Measure.Reader.formed_of_atom h).scale_pos

/-! ## Units -/

section Units

variable {nodes : List (Node K)} {config : Config K} {n : Node K} {a b : Measure.Unit K}

theorem failsOnly_mul (ha : Measured config a) (hb : Measured config b) :
    FailsOnly (fun e => Remaining nodes config (.unit e)) (a.mul b) := by
  intro e h
  unfold Measure.Unit.mul Measure.Unit.named at h
  split at h
  · cases h
  · next hgauge =>
    rw [← Except.error.inj h]
    exact .product ha hb (by rw [Measure.Unit.mul, hgauge]; rfl)

theorem failsOnly_div (ha : Measured config a) (hb : Measured config b) :
    FailsOnly (fun e => Remaining nodes config (.unit e)) (a.div b) := by
  intro e h
  unfold Measure.Unit.div Measure.Unit.named at h
  split at h
  · cases h
  · next hgauge =>
    rw [← Except.error.inj h]
    exact .quotient ha hb (by rw [Measure.Unit.div, hgauge]; rfl)

theorem failsOnly_currency :
    FailsOnly (fun e => Remaining nodes config (.unit e))
      (Measure.Unit.read (K := K) config.currency) := by
  intro e h
  have herror := h
  unfold Measure.Unit.read at h
  split at h
  · cases h
  · next fault _ =>
    rw [← Except.error.inj h] at herror ⊢
    exact .currency herror

section Given

variable (hn : n ∈ nodes) (hb : Measured config b)

include hn hb

theorem failsOnly_ratio (ha : a ∈ n.units) :
    FailsOnly (fun e => Remaining nodes config (.unit e)) (a.ratio b) := by
  unfold Measure.Unit.ratio
  split
  · exact failsOnly_ok _
  · next h => exact failsOnly_error (.dimension hn ha hb h)

theorem failsOnly_magnitudeIn {q : Quantity K} (hq : q ∈ n.quantities) :
    FailsOnly (fun e => Remaining nodes config (.unit e)) (q.magnitudeIn b) := by
  unfold Quantity.magnitudeIn
  split
  · exact failsOnly_ok _
  · next u hu =>
    exact (failsOnly_ratio hn hb
      (List.mem_append_right _ (List.mem_filterMap.2 ⟨q, hq, hu⟩))).map

theorem failsOnly_valuesIn {s : Series K} (hs : n.role.profile? = some s) :
    FailsOnly (fun e => Remaining nodes config (.unit e)) (s.valuesIn b) := by
  rw [Series.valuesIn_eq_map]
  cases hu : s.unit with
  | none => exact failsOnly_ok _
  | some u =>
    exact (failsOnly_ratio hn hb (List.mem_append_left _ (by rw [hs]; simp [hu]))).map

end Given

end Units

/-! ## Variables -/

section Variables

variable {nodes : List (Node K)} {config : Config K} {n : Node K} {c : NodeCommodities}
variable {served : List Outlet} (hn : n ∈ nodes)

/-- An error is not about a unit, unless it is one of those that remain. The names of variables fail
for reasons that are known already. -/
def UnitsRemain (nodes : List (Node K)) (config : Config K) (e : CompileError K) : Prop :=
  ∀ u, e = .unit u → Remaining nodes config e

theorem unitsRemain_addScalar (m : Model K) (name : String) :
    FailsOnly (UnitsRemain nodes config) (Node.addScalar m name) :=
  FailsOnly.mapError fun _ _ _ h => by cases h

theorem unitsRemain_addSeries (m : Model K) (name : String) (steps : Nat) :
    FailsOnly (UnitsRemain nodes config) (Node.addSeries m name steps) :=
  FailsOnly.mapError fun _ _ _ h => by cases h

theorem unitsRemain_addFlow (m : Model K) (name : String) (steps : Nat) :
    FailsOnly (UnitsRemain nodes config) (Node.addFlow m name steps) :=
  (unitsRemain_addSeries m name steps).bind fun _ _ => failsOnly_ok _

theorem unitsRemain_addStorage (m : Model K) (name : String) (steps : Nat) :
    FailsOnly (UnitsRemain nodes config) (Node.addStorage m name steps) :=
  (unitsRemain_addScalar m _).bind fun _ _ => (unitsRemain_addSeries _ _ steps).bind fun _ _ =>
    (unitsRemain_addSeries _ _ steps).bind fun _ _ =>
      (unitsRemain_addSeries _ _ steps).bind fun _ _ => failsOnly_ok _

theorem unitsRemain_orOwnFlow (name : String) (steps : Nat) (given : List (Flow K)) (m : Model K) :
    FailsOnly (UnitsRemain nodes config) (Node.orOwnFlow name steps given m) := by
  unfold Node.orOwnFlow
  split
  · exact (unitsRemain_addFlow m name steps).map
  · exact failsOnly_ok _

theorem FailsOnly.unitsRemain {α : Type} {x : Except (CompileError K) α}
    (h : FailsOnly (Remaining nodes config) x) : FailsOnly (UnitsRemain nodes config) x :=
  h.imp fun _ he _ _ => he

include hn

/-- A profile is given in the unit of a commodity. -/
theorem failsOnly_flowIn {commodities : List String} (hne : commodities ≠ [])
    (hunit : ∀ commodity ∈ commodities, ∃ unit, config.catalogue.unitOf commodity = .ok unit)
    {profile : Series K} (hp : n.role.profile? = some profile) :
    FailsOnly (Remaining nodes config) (Node.flowIn config.catalogue commodities profile) := by
  have hfirst : commodities.headD "" ∈ commodities := by
    cases commodities with
    | nil => exact absurd rfl hne
    | cons commodity r => exact List.mem_cons_self
  exact (failsOnly_of_exists (hunit _ hfirst)).mapError.bind fun unit hu =>
    (failsOnly_valuesIn hn (.commodity (mapError_eq_ok_iff.1 hu)) hp).mapError.bind fun _ _ =>
      failsOnly_ok _

variable (hc : n.settle config.catalogue served = .ok c)

include hc

theorem unitsRemain_addInflows (steps : Nat) (size : Option Var) (m : Model K) :
    FailsOnly (UnitsRemain nodes config) (n.addInflows config.catalogue steps c size m) := by
  unfold Node.addInflows
  cases hr : n.role with
  | fixedInput flow =>
    have hflow : FailsOnly (Remaining nodes config)
        (Node.flowIn config.catalogue c.inflow flow) :=
      failsOnly_flowIn hn (Node.inflow_ne_nil hc) (fun _ h => Node.exists_unit hc (.inl h))
        (by rw [hr]; rfl)
    exact hflow.unitsRemain.bind fun _ _ => failsOnly_ok _
  | scalableInput factors =>
    have hvalues : FailsOnly (fun e => Remaining nodes config (.unit e)) (factors.valuesIn .one) :=
      failsOnly_valuesIn hn .one (by rw [hr]; rfl)
    exact (FailsOnly.unitsRemain hvalues.mapError).bind fun _ _ => failsOnly_ok _
  | fixedOutput | scalableOutput | generic =>
    exact failsOnly_runEach (fun inlet _ m => unitsRemain_addFlow m _ steps) m

theorem unitsRemain_declare (steps : Nat) (m : Model K) :
    FailsOnly (UnitsRemain nodes config) (Node.declare config.catalogue steps m (n, c)) := by
  have hsize : ∀ m : Model K, FailsOnly (UnitsRemain nodes config) (n.addSize m) := by
    intro m
    unfold Node.addSize
    split
    · exact (unitsRemain_addScalar m _).map
    · exact failsOnly_ok _
  have hstorage : ∀ m : Model K,
      FailsOnly (UnitsRemain nodes config) (n.addOwnStorage steps m) := by
    intro m
    unfold Node.addOwnStorage
    split
    · exact (unitsRemain_addStorage m _ steps).map
    · exact failsOnly_ok _
  exact (hsize m).bind fun p _ => (unitsRemain_addInflows hn hc steps p.1 p.2).bind fun q _ =>
    (hstorage q.2).bind fun _ _ => failsOnly_ok _

theorem unitsRemain_bind (steps : Nat) (m : Model K) (d : Declared K) (names : List String)
    (edgeFlows : List (Flow K)) : FailsOnly (UnitsRemain nodes config)
      (n.bind config.catalogue steps m c d names edgeFlows) := by
  have hout : FailsOnly (UnitsRemain nodes config)
      (n.addOutflows config.catalogue steps c edgeFlows m) := by
    unfold Node.addOutflows
    cases hr : n.role with
    | fixedOutput inputs flow =>
      have hflow : FailsOnly (Remaining nodes config)
          (Node.flowIn config.catalogue c.outflow flow) :=
        failsOnly_flowIn hn (Node.outflow_ne_nil hc) (fun _ h => Node.exists_unit hc (.inr h))
          (by rw [hr]; rfl)
      exact hflow.unitsRemain.bind fun _ _ => failsOnly_ok _
    | fixedInput | scalableInput | scalableOutput | generic =>
      exact unitsRemain_orOwnFlow _ steps edgeFlows m
  exact hout.bind fun p _ => (unitsRemain_orOwnFlow _ steps d.inflows p.2).bind fun _ _ =>
    failsOnly_ok _

omit hn hc in
/-- Variables fail for the unit of a profile, or if two of them have the same name. -/
theorem failsOnly_addFlows (hw : Wired nodes) {cs : List NodeCommodities}
    (hcs : List.Forall₂ (fun n c => n.settle config.catalogue (outlets nodes n.name) = .ok c)
      nodes cs) (steps : Nat) : FailsOnly (Remaining nodes config)
      (Graph.addFlows ⟨nodes, Graph.edgesOf nodes⟩ config.catalogue steps cs .empty) := by
  have hsettled := (forall₂_iff_getElem?.1 hcs).2
  have hunits : FailsOnly (UnitsRemain nodes config)
      (Graph.addFlows ⟨nodes, Graph.edgesOf nodes⟩ config.catalogue steps cs .empty) := by
    refine FailsOnly.bind (failsOnly_runEach ?_ _) fun p _ => failsOnly_runEach ?_ _
    · rintro ⟨n, c⟩ hp m
      obtain ⟨i, hi⟩ := List.mem_iff_getElem?.1 hp
      obtain ⟨hni, hci⟩ := List.getElem?_zip_eq_some.1 hi
      exact unitsRemain_declare (List.mem_of_getElem? hni) (hsettled i _ _ hni hci) steps m
    · rintro ⟨⟨n, c, d⟩, i⟩ hp m
      obtain ⟨hni, hci, -⟩ := Graph.getElem?_of_mem_items hp
      exact unitsRemain_bind (List.mem_of_getElem? hni) (hsettled i _ _ hni hci) steps m d _ _
  intro e h
  have hrealizes :=
    Graph.realizes_addFlows config.catalogue steps hw hcs.length_eq.symm (Model.empty (K := K))
  rw [h] at hrealizes
  rcases hrealizes with ⟨⟨name, rfl⟩, hfresh⟩ | ⟨⟨u, rfl⟩, -⟩
  · exact .duplicate (mt (Graph.fresh_variables_iff steps).2 hfresh)
  · exact hunits _ h u rfl

end Variables

/-! ## Conditions -/

section Conditions

variable {nodes : List (Node K)} {config : Config K} {n : Node K} {c : NodeCommodities}
variable {served : List Outlet} {steps : Nat} {f : NodeFlows K} (hn : n ∈ nodes)

include hn

theorem failsOnly_factorFrom {output source : String} {factor : Quantity K}
    (hfactor : factor ∈ n.quantities)
    (houtput : ∃ unit, config.catalogue.unitOf output = .ok unit)
    (hsource : ∃ unit, config.catalogue.unitOf source = .ok unit) :
    FailsOnly (Remaining nodes config)
      (Node.factorFrom config.catalogue output source factor) :=
  (failsOnly_of_exists houtput).mapError.bind fun _ ho =>
    (failsOnly_of_exists hsource).mapError.bind fun _ hs =>
      have ha : Measured config _ := .commodity (mapError_eq_ok_iff.1 ho)
      have hb : Measured config _ := .commodity (mapError_eq_ok_iff.1 hs)
      (failsOnly_div ha hb).mapError.bind fun _ ht =>
        (failsOnly_magnitudeIn hn (.div ha hb (mapError_eq_ok_iff.1 ht)) hfactor).mapError

variable (hc : n.settle config.catalogue served = .ok c)
variable (h : n.Complete config.catalogue steps c f)

include hc h

theorem failsOnly_conversion {output : String} (ho : output ∈ c.outflow) :
    FailsOnly (Remaining nodes config) (n.conversion config.catalogue f output) := by
  have houtput := h.unit output (List.mem_append_right _ ho)
  unfold Node.conversion
  cases hconversions : n.conversions with
  | some conversions =>
    obtain ⟨conversion, hfind, hsource⟩ := h.conversion conversions hconversions output ho
    have hfactor : conversion.factor ∈ n.quantities := by
      have hvalue : conversion ∈ conversions.values :=
        List.mem_map_of_mem (f := Prod.snd) (Keyed.mem_of_find? hfind)
      unfold Node.quantities
      simp only [hconversions, Option.toList_some, List.flatMap_singleton]
      simp [List.mem_map_of_mem (f := Conversion.factor) hvalue]
    simp only [hfind]
    exact (failsOnly_factorFrom hn hfactor houtput
      (h.unit _ (List.mem_append_left _ hsource))).bind fun _ _ => failsOnly_ok _
  | none =>
    dsimp only
    rw [h.inflow]
    split
    · next source hone =>
      have hsource : source ∈ c.inflow := mem_distinct.1 (hone ▸ List.mem_singleton_self source)
      exact (failsOnly_factorFrom hn List.mem_cons_self houtput
        (h.unit _ (List.mem_append_left _ hsource))).bind fun _ _ => failsOnly_ok _
    · next hmixed =>
      split
      · next hunit =>
        exact failsOnly_error
          (.mixedInputs hn hconversions hunit (Node.mixed_of_inflow hc hmixed))
      · exact failsOnly_ok _

theorem failsOnly_balanceRows (hours : K) {outputs : List String} {output : String}
    (ho : output ∈ c.outflow) :
    FailsOnly (Remaining nodes config)
      (n.balanceRows config.catalogue steps hours f outputs output) :=
  (failsOnly_conversion hn hc h ho).bind fun _ _ => failsOnly_ok _

omit hn hc in
theorem failsOnly_sizeRows (hours : K) :
    FailsOnly (Remaining nodes config) (n.sizeRows steps hours f) := by
  unfold Node.sizeRows
  cases hsize : f.size with
  | none => exact failsOnly_ok _
  | some size =>
    obtain ⟨commodity, -, hcommodity⟩ := h.sizeCommodity (.inl (by rw [hsize]; rfl))
    simp only [hcommodity]
    split <;> exact failsOnly_ok _

end Conditions

/-! ## Proportions -/

section Proportions

variable {nodes : List (Node Rat)} {config : Config Rat} {n : Node Rat} {side : Direction}
variable {streams : List (Stream Rat)} (hn : n ∈ nodes) (hunits : ∀ u ∈ n.units, u.Formed)
variable (hcatalogue : config.catalogue.Formed)
variable (hstreams : ∀ s ∈ streams, ∃ unit, config.catalogue.unitOf s.commodity = .ok unit)

include hn hunits hcatalogue hstreams

/-- A ratio stays positive in the unit of any flow. -/
theorem failsOnly_proportionGroup {byCommodity : Bool} {key : String} {ratio : Quantity Rat}
    (hratio : ratio ∈ n.quantities) (hpos : 0 < ratio.magnitude)
    (hne : Node.sharing streams byCommodity key ≠ []) : FailsOnly (Remaining nodes config)
      (n.proportionGroup config.catalogue side streams byCommodity key ratio) := by
  unfold Node.proportionGroup
  dsimp only
  split
  · next hnil => exact absurd hnil hne
  · next first rest hfirst =>
    have hmem : first ∈ streams := List.mem_of_mem_filter (hfirst ▸ List.mem_cons_self)
    refine (failsOnly_of_exists (hstreams first hmem)).mapError.bind fun unit hu => ?_
    have hunit := mapError_eq_ok_iff.1 hu
    refine (failsOnly_magnitudeIn hn (.commodity hunit) hratio).mapError.bind fun value hv => ?_
    have hvalue : 0 < value := by
      rw [Quantity.magnitudeIn_eq (mapError_eq_ok_iff.1 hv)]
      refine mul_pos hpos ?_
      unfold ratioTo
      split
      · next u hgiven =>
        have hformed := hunits u (List.mem_append_right _
          (List.mem_filterMap.2 ⟨ratio, hratio, hgiven⟩))
        exact div_pos hformed.scale_pos (hcatalogue.of_unitOf hunit).scale_pos
      · exact one_pos
    rw [if_pos hvalue]
    exact failsOnly_ok _

theorem failsOnly_proportionRows {steps : Nat} {ratios : Option (Keyed (Quantity Rat))}
    (hratios : ∀ r ∈ ratios, ∀ e ∈ r.entries, e.2 ∈ n.quantities ∧ 0 < e.2.magnitude)
    (hsharing : ∀ r ∈ ratios, ∀ key ∈ r.keys,
      Node.sharing streams (r.keys = distinct (streams.map (·.commodity))) key ≠ []) :
    FailsOnly (Remaining nodes config)
      (n.proportionRows config.catalogue steps side streams ratios) := by
  unfold Node.proportionRows
  cases ratios with
  | none => exact failsOnly_ok _
  | some r =>
    refine (failsOnly_mapM fun e he => ?_).bind fun groups _ => ?_
    · obtain ⟨hratio, hpos⟩ := hratios r rfl e he
      exact failsOnly_proportionGroup hn hunits hcatalogue hstreams hratio hpos
        (hsharing r rfl e.1 (List.mem_map_of_mem he))
    · split <;> exact failsOnly_ok _

end Proportions

/-! ## Costs -/

section Costs

variable {nodes : List (Node K)} {config : Config K} {n : Node K} {c : NodeCommodities}
variable {steps : Nat} {f : NodeFlows K} {currency : Measure.Unit K} (hn : n ∈ nodes)
variable (hcurrency : Measured config currency)

include hn hcurrency

theorem failsOnly_ofSize {unit : Measure.Unit K} (hunit : Measured config unit)
    {costs : Quantity K} (hcosts : costs ∈ n.quantities) :
    FailsOnly (fun e => Remaining nodes config (.unit e)) (Costs.ofSize currency unit costs) :=
  (failsOnly_div hcurrency hunit).bind fun _ ht =>
    failsOnly_magnitudeIn hn (.div hcurrency hunit ht) hcosts

theorem failsOnly_ofAmount {unit : Measure.Unit K} (hunit : Measured config unit)
    {costs : Quantity K} (hcosts : costs ∈ n.quantities) :
    FailsOnly (fun e => Remaining nodes config (.unit e)) (Costs.ofAmount currency unit costs) :=
  (failsOnly_mul hunit .hour).bind fun _ ha =>
    have hamount : Measured config _ := .mul hunit .hour ha
    (failsOnly_div hcurrency hamount).bind fun _ ht =>
      failsOnly_magnitudeIn hn (.div hcurrency hamount ht) hcosts

variable (h : n.Complete config.catalogue steps c f)

include h

omit hn hcurrency in
/-- A size, be it that of a storage, counts in the unit of a commodity. -/
theorem exists_sizeUnit (hs : f.size.isSome = true ∨ f.storage.isSome = true) :
    ∃ unit, n.sizeUnit config.catalogue f = .ok unit ∧ Measured config unit := by
  obtain ⟨commodity, hmem, hcommodity⟩ := h.sizeCommodity hs
  obtain ⟨unit, hunit⟩ := h.unit _ (List.mem_append_right _ hmem)
  refine ⟨unit, ?_, .commodity hunit⟩
  unfold Node.sizeUnit
  rw [hcommodity]
  exact mapError_eq_ok_iff.2 hunit

theorem failsOnly_sizeCosts :
    FailsOnly (Remaining nodes config) (n.sizeCosts config.catalogue currency f) := by
  unfold Node.sizeCosts
  split
  · next size costs hs hcosts =>
    have hmem : costs ∈ n.quantities := by simp [Node.quantities, hcosts]
    obtain ⟨unit, hunit, hmeasured⟩ := exists_sizeUnit h (.inl (by rw [hs]; rfl))
    rw [hunit]
    exact (failsOnly_ofSize hn hcurrency hmeasured hmem).mapError.bind fun _ _ => failsOnly_ok _
  · exact failsOnly_ok _

theorem failsOnly_storageCosts :
    FailsOnly (Remaining nodes config) (n.storageCosts config.catalogue currency f) := by
  unfold Node.storageCosts
  split
  · next s storage hs hcosts =>
    have hmem : storage.costs ∈ n.quantities := by simp [Node.quantities, hcosts]
    obtain ⟨unit, hunit, hmeasured⟩ := exists_sizeUnit h (.inr (by rw [hs]; rfl))
    rw [hunit]
    exact (failsOnly_ofAmount hn hcurrency hmeasured hmem).mapError.bind fun _ _ => failsOnly_ok _
  · exact failsOnly_ok _

theorem failsOnly_flowCosts (hours : K) :
    FailsOnly (Remaining nodes config) (n.flowCosts config.catalogue currency hours f) := by
  unfold Node.flowCosts
  split
  · exact failsOnly_ok _
  · next costs hcosts =>
    have hmem : costs ∈ n.quantities := by simp [Node.quantities, hcosts]
    refine failsOnly_foldlM (fun s hs total => ?_) _
    have hcommodity : s.commodity ∈ c.inflow := h.inflow ▸ List.mem_map_of_mem hs
    exact (failsOnly_of_exists (h.unit _ (List.mem_append_left _ hcommodity))).mapError.bind
      fun unit hu => (failsOnly_ofAmount hn hcurrency
        (.commodity (mapError_eq_ok_iff.1 hu)) hmem).mapError.bind fun _ _ => failsOnly_ok _

theorem failsOnly_totalCosts (hours : K) : FailsOnly (Remaining nodes config)
    (n.totalCosts config.catalogue currency hours f) :=
  (failsOnly_sizeCosts hn hcurrency h).bind fun _ _ =>
    (failsOnly_storageCosts hn hcurrency h).bind fun _ _ =>
      (failsOnly_flowCosts hn hcurrency h hours).bind fun _ _ => failsOnly_ok _

end Costs

/-! ## The whole model -/

/-- Conditions that are made are added, unless one of them can never hold. -/
theorem failsOnly_addRows {P : CompileError K → Prop} {m : Model K}
    {rows : List (Except (CompileError K) (Rows K))} (hrows : ∀ r ∈ rows, FailsOnly P r)
    (hadmissible : ∀ cs, .ok cs ∈ rows → ∀ c ∈ cs, c.Admissible) :
    FailsOnly P (m.addRows rows) :=
  failsOnly_foldlM (fun r hr _ => (hrows r hr).bind fun cs hcs =>
    failsOnly_of_exists ⟨_, mapError_eq_ok_iff.2
      (Model.addConstraints_eq_ok_iff.2 ⟨hadmissible cs (hcs ▸ hr), rfl⟩)⟩) _

section Compiling

variable {nodes : List (Node Rat)} {grid : Grid} {config : Config Rat}
variable (hbuilt : ∀ n ∈ nodes, n.Built) (hunits : ∀ n ∈ nodes, ∀ u ∈ n.units, u.Formed)
variable (hcatalogue : config.catalogue.Formed)

include hbuilt hunits hcatalogue

theorem failsOnly_rows {n : Node Rat} {c : NodeCommodities} {f : NodeFlows Rat} (hn : n ∈ nodes)
    {served : List Outlet} (hc : n.settle config.catalogue served = .ok c)
    (h : n.Complete config.catalogue grid.size c f) :
    ∀ r ∈ n.rows config.catalogue grid.size grid.hours f,
      FailsOnly (Remaining nodes config) r := by
  have hin : ∀ s ∈ f.inflows, ∃ unit, config.catalogue.unitOf s.commodity = .ok unit :=
    fun s hs => h.unit _ (List.mem_append_left _ (h.inflow ▸ List.mem_map_of_mem hs))
  have hout : ∀ s ∈ f.outflows, ∃ unit, config.catalogue.unitOf s.commodity = .ok unit :=
    fun s hs => h.unit _ (List.mem_append_right _ (h.outflow ▸ List.mem_map_of_mem hs))
  unfold Node.rows
  rw [h.outflow]
  refine List.forall_mem_append.2 ⟨fun r hr => ?_, ?_⟩
  · obtain ⟨output, ho, rfl⟩ := List.mem_map.1 hr
    exact failsOnly_balanceRows hn hc h _ (mem_distinct.1 ho)
  · simp only [List.forall_mem_cons, List.not_mem_nil, false_implies, implies_true, and_true]
    refine ⟨failsOnly_ok _, ?_, ?_, failsOnly_sizeRows h _⟩
    · refine failsOnly_proportionRows hn (hunits n hn) hcatalogue hin
        (fun ratios hr e he => ⟨?_, ?_⟩) h.inputProportions
      · have hvalue : e.2 ∈ ratios.values := List.mem_map_of_mem he
        simp [Node.quantities, Option.mem_def.1 hr, hvalue]
      · exact ((hbuilt n hn).inputProportions_eq_some hr).2 e he
    · refine failsOnly_proportionRows hn (hunits n hn) hcatalogue hout
        (fun ratios hr e he => ⟨?_, ?_⟩) h.outputProportions
      · have hvalue : e.2 ∈ ratios.values := List.mem_map_of_mem he
        simp [Node.quantities, Option.mem_def.1 hr, hvalue]
      · exact (Node.outputProportions_eq_some hc hr).2 e he

theorem failsOnly_compile (hw : Wired nodes) (hgrid : OnGrid nodes grid)
    {cs : List NodeCommodities}
    (hc : List.Forall₂ (fun n c => n.settle config.catalogue (outlets nodes n.name) = .ok c)
      nodes cs) :
    FailsOnly (Remaining nodes config)
      (Network.compile ⟨nodes, Graph.edgesOf nodes⟩ grid config cs) := by
  refine (failsOnly_addFlows hw hc grid.size).bind fun ⟨fs, _⟩ hflows => ?_
  obtain ⟨hnames, hlen, hbound⟩ := Graph.bound_of_addFlows hw hc hflows
  have hitem : ∀ n f, (n, f) ∈ nodes.zip fs → n ∈ nodes ∧ ∃ c,
      n.Bound config.catalogue (outlets nodes n.name) (registry nodes grid.size) c f ∧
        n.Complete config.catalogue grid.size c f := by
    intro n f hp
    obtain ⟨i, hi⟩ := List.mem_iff_getElem?.1 hp
    obtain ⟨hni, hfi⟩ := List.getElem?_zip_eq_some.1 hi
    have hn := List.mem_of_getElem? hni
    have hci := List.getElem?_eq_getElem (hc.length_eq ▸ (List.getElem?_eq_some_iff.1 hni).1)
    have hb := hbound i n _ f hni hci hfi
    exact ⟨hn, _, hb, hb.complete hnames hgrid hn (hbuilt n hn)⟩
  refine (failsOnly_addRows ?_ ?_).bind fun _ _ =>
    failsOnly_currency.mapError.bind fun currency hcurrency => ?_
  · intro r hr
    obtain ⟨⟨n, f⟩, hp, hr⟩ := List.mem_flatMap.1 hr
    obtain ⟨hn, c, hb, hcomplete⟩ := hitem n f hp
    exact failsOnly_rows hbuilt hunits hcatalogue hn hb.settled hcomplete r hr
  · intro rows hr d hd
    obtain ⟨⟨n, f⟩, hp, hr⟩ := List.mem_flatMap.1 hr
    obtain ⟨hn, c, hb, -⟩ := hitem n f hp
    exact (Node.exact_rows hnames hn hb hw (hbuilt n hn) hr hd).admissible
  · refine (failsOnly_foldlM (fun p hp total => ?_) _).bind fun _ _ => failsOnly_ok _
    obtain ⟨n, f⟩ := p
    obtain ⟨hn, c, -, hcomplete⟩ := hitem n f hp
    exact (failsOnly_totalCosts hn (.currency (mapError_eq_ok_iff.1 hcurrency))
      hcomplete grid.hours).bind fun _ _ => failsOnly_ok _

end Compiling

theorem Network.build_eq_of_commodities {nodes : List (Node K)} {grid : Grid} {config : Config K}
    {g : Graph K} {cs : List NodeCommodities} (hg : Graph.ofNodes nodes = .ok g)
    (hv : g.validate grid = .ok ()) (hc : g.commodities config.catalogue = .ok cs) :
    build nodes grid config = (compile g grid config cs).mapError .compile >>= fun p =>
      .ok ⟨g, grid, config, p.1, p.2, none⟩ := by
  unfold build
  rw [hg]
  change ((g.validate grid).mapError Error.graph >>= _) = _
  rw [hv]
  change ((g.commodities config.catalogue).mapError Error.commodity >>= _) = _
  rw [hc]
  rfl

/-- A plant that is fed by a wind farm and by gas, with a ratio in a unit. Its factor has a unit as
well, although its inputs are mixed. -/
def blendDrafts : List (Draft Rat) :=
  [windDraft,
    { name := "gas", role := .generic ⟨[], .single "gas"⟩ },
    { name := "plant", role := .generic ⟨["wind", "gas"], .perInput ["electricity", "gas"]⟩,
      convertFactor := some ⟨1 / 2, some Catalogue.tonnePerHour⟩,
      inputProportions := some (.ofList
        [("electricity", ⟨1, some Catalogue.megawatt⟩), ("gas", .plain 3)]),
      outputCommodity := some "methanol" }]

theorem formed_of_blend : ∀ n ∈ builtNodes blendDrafts, ∀ u ∈ n.units, u.Formed := by
  have h : ∀ n ∈ builtNodes blendDrafts, ∀ u ∈ n.units,
      u = Catalogue.megawatt ∨ u = Catalogue.tonnePerHour := by
    decide +kernel
  intro n hn u hu
  rcases h n hn u hu with rfl | rfl
  · exact Catalogue.formed_megawatt
  · exact Catalogue.formed_tonnePerHour

end SupplyNet
