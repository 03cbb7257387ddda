import Mathlib
import SupplyNet.Proofs.Keyed
import SupplyNet.Proofs.Network.Values

/-!
Flow balance. Of every output commodity of a node, what flows out and into the storage is what is
converted from the inputs; the balance conditions of a network say this of all nodes, and nothing
else.
-/
set_option autoImplicit false

namespace SupplyNet

namespace Node

/-! ## Conversion -/

section Conversion

variable (nodes : List (Node Rat)) (catalogue : Catalogue Rat)

/-- The commodity of each input flow. -/
def inputNames (n : Node Rat) : List String :=
  match n.inlets with
  | [] => [leafInputName nodes n]
  | inlets => inlets.map (·.commodity)

theorem inputNames_ne_nil (n : Node Rat) : n.inputNames nodes ≠ [] := by
  unfold inputNames
  cases n.inlets with
  | nil => simp
  | cons i r => simp

/-- Whether an output commodity is converted from an input commodity. Without conversions of their
own, all inputs become one output. -/
def madeFrom (n : Node Rat) (output commodity : String) : Bool :=
  match n.conversions with
  | some conversions => (conversions.find? output).any fun c => commodity = c.source
  | none => true

/-- A factor in the unit of an output commodity for each unit of an input commodity. -/
def plainFactor (output source : String) (factor : Quantity Rat) : Rat :=
  factor.magnitude * ratioTo factor.unit (catalogue.scaleOf output / catalogue.scaleOf source)

/-- How much of an output commodity comes of one unit of what it is converted from. -/
def factorTo (n : Node Rat) (output : String) : Rat :=
  match n.conversions with
  | some conversions =>
    match conversions.find? output with
    | some c => plainFactor catalogue output c.source c.factor
    | none => 0
  | none =>
    match distinct (inputNames nodes n) with
    | [source] => plainFactor catalogue output source n.convertFactor
    | _ => n.convertFactor.magnitude

variable {nodes catalogue} {n : Node Rat} {c : NodeCommodities} {f : NodeFlows Rat} {m : Model Rat}

theorem map_commodity_inflows (h : n.Bound catalogue (outlets nodes n.name) m c f) :
    f.inflows.map (·.commodity) = inputNames nodes n := by
  have hin := h.inflows
  unfold inStreams at hin
  unfold inputNames
  split
  · next hi =>
    rw [if_pos hi, inflow_eq_leafInputName h.settled hi] at hin
    obtain ⟨flow, -, hf⟩ := map_eq_ok_iff.1 hin
    rw [← hf]
    rfl
  · next hi =>
    rw [if_neg hi] at hin
    rw [← Except.ok.inj hin, List.map_map]
    rfl

theorem map_commodity_outflows (h : n.Bound catalogue (outlets nodes n.name) m c f) :
    f.outflows.map (·.commodity) = outputNames nodes n := by
  have hout := h.outflows
  unfold outStreams at hout
  rw [← outflow_eq_outputNames h.settled]
  by_cases hs : outlets nodes n.name = []
  · obtain ⟨commodity, -, hc⟩ := outflow_of_leaf h.settled hs
    rw [if_pos hs, hc] at hout
    obtain ⟨flow, -, hf⟩ := map_eq_ok_iff.1 hout
    rw [← hf, hc]
    rfl
  · rw [if_neg hs] at hout
    rw [← Except.ok.inj hout, outflow_of_served h.settled hs, List.map_map]
    rfl

theorem factorFrom_eq {output source : String} {factor : Quantity Rat} {q : Rat}
    (h : factorFrom catalogue output source factor = .ok q) :
    q = plainFactor catalogue output source factor := by
  unfold factorFrom at h
  unfold plainFactor
  obtain ⟨outputUnit, ho, h⟩ := bind_eq_ok_iff.1 h
  obtain ⟨sourceUnit, hs, h⟩ := bind_eq_ok_iff.1 h
  obtain ⟨target, ht, h⟩ := bind_eq_ok_iff.1 h
  rw [Quantity.magnitudeIn_eq (mapError_eq_ok_iff.1 h),
    Measure.Unit.scale_of_div (mapError_eq_ok_iff.1 ht),
    Catalogue.scale_of_unitOf (mapError_eq_ok_iff.1 ho),
    Catalogue.scale_of_unitOf (mapError_eq_ok_iff.1 hs)]

/-- A plain factor of one converts nothing. -/
theorem factorTo_of_plain_one (hconv : n.conversions = none) (hfactor : n.convertFactor = .plain 1)
    (output : String) : n.factorTo nodes catalogue output = 1 := by
  unfold factorTo plainFactor
  rw [hconv, hfactor]
  dsimp only
  split
  · exact mul_one 1
  · rfl

theorem conversion_eq {output : String} {inputs : List (Flow Rat)} {factor : Rat}
    (h : n.Bound catalogue (outlets nodes n.name) m c f)
    (hc : n.conversion catalogue f output = .ok (inputs, factor)) :
    inputs = (f.inflows.filter fun s => n.madeFrom output s.commodity).map (·.flow) ∧
      factor = n.factorTo nodes catalogue output := by
  unfold conversion at hc
  unfold madeFrom factorTo
  cases hconv : n.conversions with
  | some conversions =>
    simp only [hconv] at hc
    cases hfind : conversions.find? output with
    | none => simp [hfind] at hc
    | some c =>
      simp only [hfind] at hc
      obtain ⟨q, hq, hc⟩ := bind_eq_ok_iff.1 hc
      obtain ⟨rfl, rfl⟩ := Prod.mk.inj (Except.ok.inj hc)
      dsimp only
      rw [hfind]
      exact ⟨rfl, factorFrom_eq hq⟩
  | none =>
    simp only [hconv] at hc
    have hall : (f.inflows.filter fun _ => true) = f.inflows := List.filter_true _
    rw [map_commodity_inflows h] at hc
    rw [hall]
    have hmixed : (if n.convertFactor.unit.isSome then .error (.mixedInputs n.name)
        else .ok (f.inflows.map (·.flow), n.convertFactor.magnitude) :
          Except (CompileError Rat) (List (Flow Rat) × Rat)) = .ok (inputs, factor) →
        inputs = f.inflows.map (·.flow) ∧ factor = n.convertFactor.magnitude := by
      intro hc
      split at hc
      · exact absurd hc (by simp)
      · obtain ⟨rfl, rfl⟩ := Prod.mk.inj (Except.ok.inj hc)
        exact ⟨rfl, rfl⟩
    rcases hd : distinct (inputNames nodes n) with _ | ⟨source, _ | ⟨second, rest⟩⟩
    · simp only [hd] at hc
      exact hmixed hc
    · simp only [hd] at hc
      obtain ⟨q, hq, hc⟩ := bind_eq_ok_iff.1 hc
      obtain ⟨rfl, rfl⟩ := Prod.mk.inj (Except.ok.inj hc)
      exact ⟨rfl, factorFrom_eq hq⟩
    · simp only [hd] at hc
      exact hmixed hc

end Conversion

/-! ## Balance -/

/-- The sum of the values under some commodities. -/
def totalOf (p : String → Bool) (values : List (String × Rat)) : Rat :=
  ((values.filter fun v => p v.1).map Prod.snd).sum

theorem totalOf_map {α : Type} (p : String → Bool) (l : List α) (commodity : α → String)
    (value : α → Rat) :
    totalOf p (l.map fun a => (commodity a, value a)) =
      ((l.filter fun a => p (commodity a)).map value).sum := by
  unfold totalOf
  rw [List.filter_map, List.map_map]
  rfl

section Balanced

variable (nodes : List (Node Rat)) (catalogue : Catalogue Rat) (m : Model Rat) (x : Var → Rat)

/-- What is charged more than discharged in a time step, as a flow. -/
def storedAt (hours : Rat) (n : Node Rat) (t : Nat) : Rat :=
  if n.storage.isSome then
    (x (m.columnOf (.charge n.name) t) - x (m.columnOf (.discharge n.name) t)) / hours
  else 0

/-- What flows out of a commodity and into the storage is what is converted from the inputs. -/
def Balanced (hours : Rat) (n : Node Rat) (output : String) (t : Nat) : Prop :=
  totalOf (· = output) (outflowsAt nodes catalogue m x n t) + storedAt m x hours n t =
    factorTo nodes catalogue n output *
      totalOf (n.madeFrom output) (inflowsAt nodes catalogue m x n t)

end Balanced

section Eval

variable {nodes : List (Node Rat)} {catalogue : Catalogue Rat} (x : Var → Rat)
variable {n : Node Rat} {c : NodeCommodities} {f : NodeFlows Rat} {steps : Nat}
variable (hnames : ((variableKeys nodes).map (·.name)).Nodup) {t : Nat} (ht : t < steps)

theorem eval_sumAt (flows : List (Flow Rat)) (t : Nat) :
    (Flow.sumAt flows t).eval x = (flows.map fun f => (f.atStep t).eval x).sum := by
  unfold Flow.sumAt
  rw [LinearExpr.eval_sum, List.map_map]
  rfl

include hnames ht

theorem eval_varAt {k : VariableKey} (hk : k ∈ variableKeys nodes)
    (hs : k.steps? steps = some steps) :
    (varAt ((registry nodes steps).seriesOf k) t : LinearExpr Rat).eval x =
      x ((registry nodes steps).columnOf k t) := by
  unfold varAt
  rw [getElem?_seriesOf hnames hk hs ht]
  exact LinearExpr.eval_ofVar _ x

variable (hn : n ∈ nodes)

include hn

theorem eval_netChargeRate (hst : n.storage.isSome = true) (hours : Rat) :
    (((registry nodes steps).storageOf n.name).netChargeRate hours t).eval x =
      storedAt (registry nodes steps) x hours n t := by
  have hkeys := mem_variableKeys_storage hn hst
  unfold StorageVars.netChargeRate storedAt
  rw [if_pos hst, LinearExpr.eval_scale, LinearExpr.eval_sub, mul_one_div]
  congr 2
  · exact eval_varAt x hnames ht (k := .charge n.name) (hkeys _ (by simp [storageKeys])) rfl
  · exact eval_varAt x hnames ht (k := .discharge n.name) (hkeys _ (by simp [storageKeys])) rfl

theorem eval_sumAt_outflows
    (h : n.Bound catalogue (outlets nodes n.name) (registry nodes steps) c f) (output : String) :
    (Flow.sumAt (flowsOf f.outflows output) t).eval x =
      totalOf (· = output) (outflowsAt nodes catalogue (registry nodes steps) x n t) := by
  rw [← map_outflows x hnames ht hn h, totalOf_map, eval_sumAt, flowsOf, List.map_map]
  rfl

/-- The left side of a balance condition is what flows out and into the storage, less what is
converted. -/
theorem eval_balanceAt (h : n.Bound catalogue (outlets nodes n.name) (registry nodes steps) c f)
    {output : String} {inputs : List (Flow Rat)} {factor : Rat}
    (hc : n.conversion catalogue f output = .ok (inputs, factor)) (hours : Rat) :
    (balanceAt hours f output inputs factor t).eval x =
      totalOf (· = output) (outflowsAt nodes catalogue (registry nodes steps) x n t) +
          storedAt (registry nodes steps) x hours n t -
        totalOf (n.madeFrom output) (inflowsAt nodes catalogue (registry nodes steps) x n t) *
          factorTo nodes catalogue n output := by
  obtain ⟨rfl, rfl⟩ := conversion_eq h hc
  have hout := eval_sumAt_outflows x hnames ht hn h output
  have hin : (Flow.sumAt ((f.inflows.filter fun s => n.madeFrom output s.commodity).map (·.flow))
      t).eval x = totalOf (n.madeFrom output)
        (inflowsAt nodes catalogue (registry nodes steps) x n t) := by
    rw [← map_inflows x hnames ht hn h, totalOf_map, eval_sumAt, List.map_map]
    rfl
  unfold balanceAt
  rw [LinearExpr.eval_sub, LinearExpr.eval_scale, hin, h.storage]
  unfold storageIn
  congr 1
  split
  · next s hs =>
    split at hs
    · next hst =>
      rw [← Option.some.inj hs, LinearExpr.eval_add, hout,
        eval_netChargeRate x hnames ht hn hst]
    · exact absurd hs (by simp)
  · next hs =>
    split at hs
    · exact absurd hs (by simp)
    · next hst => rw [hout, storedAt, if_neg hst, add_zero]

theorem balanced_iff (h : n.Bound catalogue (outlets nodes n.name) (registry nodes steps) c f)
    {output : String} {inputs : List (Flow Rat)} {factor : Rat}
    (hc : n.conversion catalogue f output = .ok (inputs, factor)) (hours : Rat) :
    n.Balanced nodes catalogue (registry nodes steps) x hours output t ↔
      (balanceAt hours f output inputs factor t).eval x = 0 := by
  rw [eval_balanceAt x hnames ht hn h hc, sub_eq_zero, mul_comm]
  rfl

end Eval

end Node

end SupplyNet
