import Mathlib
import SupplyNet.Proofs.Linear.Expr
import SupplyNet.Proofs.Network.Columns
import SupplyNet.Proofs.Network.Streams

/-!
The values of flows under an assignment of numbers to the columns. A flow over an edge has the value
of its column, and a given profile its value in the unit of its commodity.
-/
set_option autoImplicit false

namespace SupplyNet

/-! ## Units -/

/-- How many units of a scale make one of a unit. Without a unit it is one. -/
def ratioTo (unit : Option (Measure.Unit Rat)) (scale : Rat) : Rat :=
  match unit with
  | some unit => unit.scale / scale
  | none => 1

def Catalogue.scaleOf (catalogue : Catalogue Rat) (commodity : String) : Rat :=
  match catalogue.units.find? commodity with
  | some unit => unit.scale
  | none => 1

theorem Catalogue.scale_of_unitOf {catalogue : Catalogue Rat} {commodity : String}
    {unit : Measure.Unit Rat} (h : catalogue.unitOf commodity = .ok unit) :
    unit.scale = catalogue.scaleOf commodity := by
  unfold unitOf at h
  unfold scaleOf
  cases hf : catalogue.units.find? commodity with
  | none => simp [hf] at h
  | some u =>
    simp only [hf, Except.ok.injEq] at h
    rw [h]

theorem Measure.Unit.ratio_eq {a b : Measure.Unit Rat} {q : Rat} (h : a.ratio b = .ok q) :
    q = a.scale / b.scale := by
  unfold ratio at h
  split at h
  · exact (Except.ok.inj h).symm
  · exact absurd h (by simp)

theorem Measure.Unit.scale_of_div {a b c : Measure.Unit Rat} (h : a.div b = .ok c) :
    c.scale = a.scale / b.scale := by
  unfold div at h
  cases hg : a.toGauge.div? b.toGauge with
  | none =>
    rw [hg] at h
    cases h
  | some g =>
    rw [hg] at h
    rw [← Except.ok.inj h]
    obtain ⟨d, -, rfl⟩ := Option.map_eq_some_iff.1 hg
    rfl

theorem Quantity.magnitudeIn_eq {q : Quantity Rat} {unit : Measure.Unit Rat} {r : Rat}
    (h : q.magnitudeIn unit = .ok r) : r = q.magnitude * ratioTo q.unit unit.scale := by
  unfold magnitudeIn at h
  cases hu : q.unit with
  | none =>
    simp only [hu, Except.ok.injEq] at h
    rw [← h]
    exact (mul_one _).symm
  | some u =>
    simp only [hu] at h
    obtain ⟨ratio, hr, rfl⟩ := map_eq_ok_iff.1 h
    rw [Measure.Unit.ratio_eq hr]
    rfl

/-- The value of a profile in a time step, in units of a scale. -/
def Series.valueAt (s : Series Rat) (scale : Rat) (t : Nat) : Rat :=
  s.values[t]?.getD 0 * ratioTo s.unit scale

theorem Series.valuesIn_eq {s : Series Rat} {unit : Measure.Unit Rat} {values : List Rat}
    (h : s.valuesIn unit = .ok values) : values = s.values.map (· * ratioTo s.unit unit.scale) := by
  unfold valuesIn at h
  cases hu : s.unit with
  | none =>
    simp only [hu] at h
    exact (Except.ok.inj h).symm
  | some u =>
    simp only [hu] at h
    obtain ⟨ratio, hr, h⟩ := bind_eq_ok_iff.1 h
    rw [← Except.ok.inj h, Measure.Unit.ratio_eq hr]
    rfl

theorem Series.getElem?_valuesIn {s : Series Rat} {unit : Measure.Unit Rat} {values : List Rat}
    (h : s.valuesIn unit = .ok values) (t : Nat) :
    values[t]?.getD 0 = s.valueAt unit.scale t := by
  rw [valuesIn_eq h, List.getElem?_map]
  unfold valueAt
  cases s.values[t]? with
  | none => exact (zero_mul _).symm
  | some v => rfl

/-! ## Flows -/

theorem Flow.atStep_ofValues (values : List Rat) (t : Nat) :
    (Flow.ofValues values).atStep t = .ofConst (values[t]?.getD 0) := by
  unfold ofValues atStep
  rw [List.getElem?_toArray, List.getElem?_map]
  cases values[t]? with
  | none => rfl
  | some v => rfl

theorem Flow.eval_ofFactors (v : Var) (values : List Rat) (t : Nat) (x : Var → Rat) :
    ((Flow.ofFactors (some v) values).atStep t).eval x = values[t]?.getD 0 * x v := by
  unfold ofFactors atStep
  rw [List.getElem?_toArray, List.getElem?_map]
  cases values[t]? with
  | none => rw [Option.map_none, Option.getD_none, LinearExpr.eval_zero, Option.getD_none, zero_mul]
  | some c => rw [Option.map_some, Option.getD_some, LinearExpr.eval_term, Option.getD_some]

theorem Node.atStep_flowIn {catalogue : Catalogue Rat} {commodity : String} {profile : Series Rat}
    {flow : Flow Rat} (h : flowIn catalogue [commodity] profile = .ok flow) (t : Nat) :
    flow.atStep t = .ofConst (profile.valueAt (catalogue.scaleOf commodity) t) := by
  unfold flowIn at h
  obtain ⟨unit, hu, h⟩ := bind_eq_ok_iff.1 h
  obtain ⟨values, hv, h⟩ := bind_eq_ok_iff.1 h
  rw [← Except.ok.inj h, Flow.atStep_ofValues, Series.getElem?_valuesIn (mapError_eq_ok_iff.1 hv),
    Catalogue.scale_of_unitOf (mapError_eq_ok_iff.1 hu)]
  rfl

namespace Node

variable (nodes : List (Node Rat)) (catalogue : Catalogue Rat) (m : Model Rat) (x : Var → Rat)

/-! ## The flows of a node -/

/-- The commodity that comes out of a node without outlets. -/
def leafOutputName (n : Node Rat) : String :=
  match n.leafOutput with
  | .ok commodity => commodity
  | .error _ => ""

/-- The commodity of each output flow. -/
def outputNames (n : Node Rat) : List String :=
  match outlets nodes n.name with
  | [] => [n.leafOutputName]
  | served => served.map (·.commodity)

/-- The commodity that goes into a node without inlets. -/
def leafInputName (n : Node Rat) : String :=
  match n.inputCommodities, n.leafInput (outputNames nodes n) with
  | commodity :: _, _ => commodity
  | [], .ok commodity => commodity
  | [], .error _ => ""

/-- What flows out of a node without outlets: a given flow, or one of its own. -/
def leafOutflowAt (n : Node Rat) (commodity : String) (t : Nat) : Rat :=
  match n.role with
  | .fixedOutput _ flow => flow.valueAt (catalogue.scaleOf commodity) t
  | _ => x (m.columnOf (.outflow n.name) t)

/-- What flows into a node without inlets: a given flow, a share of its size, or a flow of its own. -/
def leafInflowAt (n : Node Rat) (commodity : String) (t : Nat) : Rat :=
  match n.role with
  | .fixedInput flow => flow.valueAt (catalogue.scaleOf commodity) t
  | .scalableInput factors => factors.valueAt 1 t * x (m.scalarOf (.size n.name))
  | _ => x (m.columnOf (.inflow n.name) t)

/-- The value of each output flow in a time step, under its commodity. -/
def outflowsAt (n : Node Rat) (t : Nat) : List (String × Rat) :=
  match outlets nodes n.name with
  | [] => [(n.leafOutputName, n.leafOutflowAt catalogue m x n.leafOutputName t)]
  | served => served.map fun o => (o.commodity, x (m.columnOf (.edge n.name o.target) t))

/-- The value of each input flow in a time step, under its commodity. -/
def inflowsAt (n : Node Rat) (t : Nat) : List (String × Rat) :=
  match n.inlets with
  | [] => [(leafInputName nodes n, n.leafInflowAt catalogue m x (leafInputName nodes n) t)]
  | inlets => inlets.map fun i => (i.commodity, x (m.columnOf (.edge i.source n.name) t))

/-! ## Streams and their values -/

section Bound

variable {nodes catalogue} {n : Node Rat} {c : NodeCommodities} {f : NodeFlows Rat} {steps : Nat}

theorem leafOutputName_eq {commodity : String} (h : n.leafOutput = .ok commodity) :
    n.leafOutputName = commodity := by
  unfold leafOutputName
  rw [h]

theorem outflow_eq_outputNames (hc : n.settle catalogue (outlets nodes n.name) = .ok c) :
    c.outflow = outputNames nodes n := by
  unfold outputNames
  split
  · next h =>
    obtain ⟨commodity, hleaf, hout⟩ := outflow_of_leaf hc h
    rw [hout, leafOutputName_eq hleaf]
  · next h => exact outflow_of_served hc h

theorem inflow_eq_leafInputName (hc : n.settle catalogue (outlets nodes n.name) = .ok c)
    (h : n.inlets = []) : c.inflow = [leafInputName nodes n] := by
  have hi := inflow_eq_ok_iff.1 (settle_eq_ok_iff.1 hc).2.1
  unfold leafInputName
  rcases inputCommodities_of_leaf h with he | ⟨commodity, he⟩
  · rw [if_pos he] at hi
    obtain ⟨commodity, hleaf, hin⟩ := hi
    rw [← outflow_eq_outputNames hc, he, hleaf]
    exact hin
  · rw [he, if_neg (by simp)] at hi
    rw [he]
    exact hi

section Value

variable (hnames : ((variableKeys nodes).map (·.name)).Nodup)
variable {t : Nat} (ht : t < steps)

include hnames ht

theorem eval_flowOf {k : VariableKey} (hk : k ∈ variableKeys nodes)
    (hs : k.steps? steps = some steps) :
    (((registry nodes steps).flowOf k).atStep t).eval x =
      x ((registry nodes steps).columnOf k t) := by
  rw [flowOf_atStep hnames hk hs ht, LinearExpr.eval_ofVar]

variable (hn : n ∈ nodes)

include hn

theorem eval_leafOutflow {commodity : String} {flow : Flow Rat} (hs : outlets nodes n.name = [])
    (h : n.leafOutflow catalogue commodity (registry nodes steps) = .ok flow) :
    (flow.atStep t).eval x =
      n.leafOutflowAt catalogue (registry nodes steps) x commodity t := by
  unfold leafOutflow at h
  unfold leafOutflowAt
  split at h
  · next inputs profile hr =>
    rw [hr, atStep_flowIn h, LinearExpr.eval_ofConst]
  · next hne =>
    have hk : n.kind ≠ .fixedOutput := fun hk => by
      obtain ⟨inputs, profile, hr⟩ := role_of_fixedOutput hk
      exact hne inputs profile hr
    rw [← Except.ok.inj h, eval_flowOf x hnames ht (mem_variableKeys_outflow hn hk hs) rfl]
    split
    · next inputs profile hr => exact absurd hr (hne inputs profile)
    · rfl

theorem eval_leafInflow {commodity : String} {flow : Flow Rat} (hi : n.inlets = [])
    (h : n.leafInflow catalogue commodity (registry nodes steps) = .ok flow) :
    (flow.atStep t).eval x =
      n.leafInflowAt catalogue (registry nodes steps) x commodity t := by
  unfold leafInflow at h
  unfold leafInflowAt
  split at h
  · next profile hr =>
    rw [hr, atStep_flowIn h, LinearExpr.eval_ofConst]
  · next factors hr =>
    obtain ⟨values, hv, rfl⟩ := map_eq_ok_iff.1 h
    have hsize : n.hasSize = true := by simp [hasSize, kind, hr, Role.kind]
    rw [sizeIn, if_pos hsize, hr, Flow.eval_ofFactors,
      Series.getElem?_valuesIn (mapError_eq_ok_iff.1 hv)]
    rfl
  · next hfixed hscalable =>
    have hk : ¬n.kind.isInput := fun hk => by
      rcases role_of_isInput hk with ⟨profile, hr⟩ | ⟨factors, hr⟩
      · exact hfixed profile hr
      · exact hscalable factors hr
    rw [← Except.ok.inj h, eval_flowOf x hnames ht (mem_variableKeys_inflow hn hk hi) rfl]
    split
    · next profile hr => exact absurd hr (hfixed profile)
    · next factors hr => exact absurd hr (hscalable factors)
    · rfl

theorem map_outflows (h : n.Bound catalogue (outlets nodes n.name) (registry nodes steps) c f) :
    f.outflows.map (fun s => (s.commodity, (s.flow.atStep t).eval x)) =
      outflowsAt nodes catalogue (registry nodes steps) x n t := by
  have ho := h.outflows
  unfold outStreams at ho
  unfold outflowsAt
  split
  · next hs =>
    obtain ⟨commodity, hleaf, hout⟩ := outflow_of_leaf h.settled hs
    rw [if_pos hs, hout] at ho
    obtain ⟨flow, hflow, hf⟩ := map_eq_ok_iff.1 ho
    rw [← hf, leafOutputName_eq hleaf, List.map_singleton]
    exact congrArg (fun q => [(commodity, q)]) (eval_leafOutflow x hnames ht hn hs hflow)
  · next hs =>
    rw [if_neg hs] at ho
    rw [← Except.ok.inj ho, List.map_map]
    apply List.map_congr_left
    intro o hmem
    exact congrArg _ (eval_flowOf x hnames ht (mem_variableKeys_outlet hmem) rfl)

theorem map_inflows (h : n.Bound catalogue (outlets nodes n.name) (registry nodes steps) c f) :
    f.inflows.map (fun s => (s.commodity, (s.flow.atStep t).eval x)) =
      inflowsAt nodes catalogue (registry nodes steps) x n t := by
  have hin := h.inflows
  unfold inStreams at hin
  unfold inflowsAt
  split
  · next hi =>
    rw [if_pos hi, inflow_eq_leafInputName h.settled hi] at hin
    obtain ⟨flow, hflow, hf⟩ := map_eq_ok_iff.1 hin
    rw [← hf, List.map_singleton]
    exact congrArg (fun q => [(leafInputName nodes n, q)])
      (eval_leafInflow x hnames ht hn hi hflow)
  · next hi =>
    rw [if_neg hi] at hin
    rw [← Except.ok.inj hin, List.map_map]
    apply List.map_congr_left
    intro inlet hmem
    exact congrArg _ (eval_flowOf x hnames ht (mem_variableKeys_edge hn hmem) rfl)

end Value

end Bound

end Node

end SupplyNet
