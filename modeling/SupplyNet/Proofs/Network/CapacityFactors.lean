import Mathlib
import SupplyNet.Proofs.Network.Validation
import SupplyNet.Proofs.Network.Values

/-!
Capacity factors. What a scalable input yields is its size times its factors as plain numbers. Its
factors are checked as they are given, so with a unit that is not one they may leave the range.
-/
set_option autoImplicit false

namespace SupplyNet

/-! ## Checks -/

section Checks

variable {K : Type} [Scalar K]

/-- A draft as one of a scalable input. -/
def Draft.scalable (d : Draft K) (factors : Series K) : Draft K :=
  { d with role := .scalableInput factors }

def Series.isDimensionless (s : Series K) : Prop := ∀ unit ∈ s.unit, unit.isDimensionless = true

/-- All values are in the range of a capacity factor. -/
def AreFactors (values : List K) : Prop := ∀ v ∈ values, 0 ≤ v ∧ v ≤ 1

namespace Draft

theorem profileFaults_scalable_iff (d : Draft K) (factors : Series K) :
    (∀ fault ∈ (d.scalable factors).profileFaults, fault = none) ↔
      factors.isDimensionless ∧ AreFactors factors.values := by
  unfold scalable profileFaults Series.isDimensionless AreFactors
  simp [faultIf]

/-- A scalable input is built as soon as its factors have no unit of a dimension and are in range as
they are given, if nothing else is wrong with it. -/
theorem isOk_build_scalable_iff (d : Draft K) {valid : Series K}
    (h : (d.scalable valid).build.isOk = true) (factors : Series K) :
    (d.scalable factors).build.isOk = true ↔
      factors.isDimensionless ∧ AreFactors factors.values := by
  have hbuild : ∀ f : Series K, (d.scalable f).build.isOk = true ↔ d.name ≠ "" ∧
      (∀ fault ∈ (d.scalable f).profileFaults, fault = none) ∧
      ∀ fault ∈ ((d.scalable valid).faults []).drop 2, fault = none := by
    intro f
    have hsplit : (d.scalable f).faults [] =
        (d.scalable f).profileFaults ++ ((d.scalable valid).faults []).drop 2 := rfl
    constructor
    · intro hok
      obtain ⟨n, hn⟩ := exists_of_isOk hok
      obtain ⟨-, hname, -, role, hrole, rfl, hfaults⟩ := build_eq_ok_iff.1 hn
      obtain rfl : Role.scalableInput f = role := Except.ok.inj hrole
      change ∀ fault ∈ (d.scalable f).faults [], fault = none at hfaults
      rw [hsplit, List.forall_mem_append] at hfaults
      exact ⟨hname, hfaults⟩
    · rintro ⟨hname, hfaults⟩
      rw [← List.forall_mem_append, ← hsplit] at hfaults
      have hn : (d.scalable f).build = .ok ((d.scalable f).resolved (.scalableInput f)) :=
        build_eq_ok_iff.2 ⟨by simp [scalable, Role.kind], hname, rfl, _, rfl, rfl, hfaults⟩
      rw [hn]
      rfl
  obtain ⟨hname, -, hrest⟩ := (hbuild valid).1 h
  rw [hbuild, profileFaults_scalable_iff]
  exact ⟨fun hf => hf.2.1, fun hf => ⟨hname, hf, hrest⟩⟩

end Draft

end Checks

/-! ## Yields -/

/-- The values as plain numbers. -/
def Series.plainValues (s : Series Rat) : List Rat := s.values.map (· * ratioTo s.unit 1)

theorem Series.plainValues_of_no_unit {s : Series Rat} (h : s.unit = none) :
    s.plainValues = s.values := by
  unfold plainValues ratioTo
  rw [h]
  simp

section Yields

variable {nodes : List (Node Rat)} {grid : Grid} {config : Config Rat} {cs : List NodeCommodities}
variable {groups : List (Rows Rat)} {net : Network Rat} {n : Node Rat} {f : NodeFlows Rat}
variable {factors : Series Rat}

theorem Compiled.length_plainValues (h : Compiled nodes grid config cs groups net) (hn : n ∈ nodes)
    (hr : n.role = .scalableInput factors) : factors.plainValues.length = grid.size := by
  have hgrid := ((Graph.validate_eq_ok_iff h.wired).1 h.valid).2.1 n hn factors
    (by simp [hr, Role.profile?])
  unfold Series.plainValues
  rw [List.length_map, factors.length_eq, hgrid]

/-- The input flow of a scalable input in a time step is its size times the factor as a number. -/
theorem Compiled.inflows_of_scalableInput (h : Compiled nodes grid config cs groups net)
    (hp : (n, f) ∈ nodes.zip net.flows) (hr : n.role = .scalableInput factors) :
    ∃ size stream, net.model.scalar? s!"size_{n.name}" = some size ∧ f.size = some size ∧
      f.inflows = [stream] ∧ ∀ t < grid.size, ∃ q, factors.plainValues[t]? = some q ∧
        stream.flow.atStep t = .term size q := by
  have hn : n ∈ nodes := (List.of_mem_zip hp).1
  obtain ⟨c, hbound⟩ := h.bound hp
  have hsize : n.hasSize = true := by simp [Node.hasSize, Node.kind, hr, Role.kind]
  have hlen := h.length_plainValues hn hr
  have hin := hbound.inflows
  unfold Node.inStreams at hin
  rw [if_pos (by simp [Node.inlets, hr, Role.inputs?])] at hin
  obtain ⟨flow, hflow, hf⟩ := map_eq_ok_iff.1 hin
  unfold Node.leafInflow at hflow
  simp only [hr] at hflow
  obtain ⟨values, hv, rfl⟩ := map_eq_ok_iff.1 hflow
  have hvalues : values = factors.plainValues := Series.valuesIn_eq (mapError_eq_ok_iff.1 hv)
  have hsizeIn : n.sizeIn (registry nodes grid.size) =
      some ((registry nodes grid.size).scalarOf (.size n.name)) := by
    unfold Node.sizeIn
    rw [if_pos hsize]
  obtain ⟨v, hscalar⟩ : ∃ v, (registry nodes grid.size).scalar? (VariableKey.size n.name).name =
      some v := scalar?_registry h.names_nodup (mem_variableKeys_size hn hsize) rfl
  have hv' : (registry nodes grid.size).scalarOf (.size n.name) = v := by
    unfold Model.scalarOf
    rw [hscalar]
    rfl
  refine ⟨v, _, ?_, ?_, hf.symm, fun t ht => ?_⟩
  · rw [h.model]
    exact hscalar
  · rw [hbound.size, hsizeIn, hv']
  · have hq := List.getElem?_eq_getElem (hlen ▸ ht)
    refine ⟨_, hq, ?_⟩
    rw [hsizeIn, hv', hvalues]
    unfold Flow.ofFactors Flow.atStep
    rw [List.getElem?_toArray, List.getElem?_map, hq]
    rfl

end Yields

/-- A scalable input is built exactly if its factors are in range as they are given, so it is built
exactly if they are in range as plain numbers provided that both are the same. In a network the plain
numbers are the coefficients of the size, so these are in range exactly if the plain numbers are. -/
theorem Draft.yields_at_most_size_iff (d : Draft Rat) {valid : Series Rat}
    (h : (d.scalable valid).build.isOk = true) (factors : Series Rat) :
    ((d.scalable factors).build.isOk = true ↔
      factors.isDimensionless ∧ AreFactors factors.values) ∧
    (((d.scalable factors).build.isOk = true ↔
        factors.isDimensionless ∧ AreFactors factors.plainValues) ↔
      (factors.isDimensionless → (AreFactors factors.values ↔ AreFactors factors.plainValues))) ∧
    ∀ (n : Node Rat) (nodes : List (Node Rat)) (grid : Grid) (config : Config Rat)
      (net : Network Rat) (f : NodeFlows Rat), (d.scalable factors).build = .ok n →
      Network.build nodes grid config = .ok net → (n, f) ∈ nodes.zip net.flows →
      ∃ size stream, net.model.scalar? s!"size_{n.name}" = some size ∧ f.size = some size ∧
        f.inflows = [stream] ∧
        (∀ t < grid.size,
          factors.plainValues[t]? = some ((stream.flow.atStep t).coeff size)) ∧
        ((∀ t < grid.size, 0 ≤ (stream.flow.atStep t).coeff size ∧
            (stream.flow.atStep t).coeff size ≤ 1) ↔ AreFactors factors.plainValues) := by
  refine ⟨d.isOk_build_scalable_iff h factors, ?_, ?_⟩
  · rw [d.isOk_build_scalable_iff h factors]
    exact and_congr_right_iff
  · intro n nodes grid config net f hn hnet hp
    obtain ⟨cs, groups, hc⟩ := Network.build_eq_ok_iff.1 hnet
    obtain ⟨-, -, -, role, hrole, rfl, -⟩ := Draft.build_eq_ok_iff.1 hn
    obtain rfl : Role.scalableInput factors = role := Except.ok.inj hrole
    obtain ⟨size, stream, hscalar, hsize, hin, hflow⟩ := hc.inflows_of_scalableInput hp rfl
    have hcoeff : ∀ t < grid.size,
        factors.plainValues[t]? = some ((stream.flow.atStep t).coeff size) := by
      intro t ht
      obtain ⟨q, hq, hterm⟩ := hflow t ht
      rw [hq, hterm, LinearExpr.coeff_term_self]
    have hlen := hc.length_plainValues (List.of_mem_zip hp).1 rfl
    refine ⟨size, stream, hscalar, hsize, hin, hcoeff, fun hall q hq => ?_, fun hall t ht => ?_⟩
    · obtain ⟨t, ht⟩ := List.mem_iff_getElem?.1 hq
      have htlt : t < grid.size := hlen ▸ (List.getElem?_eq_some_iff.1 ht).1
      rw [hcoeff t htlt, Option.some.injEq] at ht
      rw [← ht]
      exact hall t htlt
    · exact hall _ (List.mem_of_getElem? (hcoeff t ht))

theorem yields_of_windNetwork :
    ((windDraft.scalable (.constant windGrid (1 / 2))).build.isOk = true ↔
      (Series.constant windGrid (1 / 2 : Rat)).isDimensionless ∧
        AreFactors (Series.constant windGrid (1 / 2 : Rat)).values) ∧
    (((windDraft.scalable (.constant windGrid (1 / 2))).build.isOk = true ↔
        (Series.constant windGrid (1 / 2 : Rat)).isDimensionless ∧
          AreFactors (Series.constant windGrid (1 / 2 : Rat)).plainValues) ↔
      ((Series.constant windGrid (1 / 2 : Rat)).isDimensionless →
        (AreFactors (Series.constant windGrid (1 / 2 : Rat)).values ↔
          AreFactors (Series.constant windGrid (1 / 2 : Rat)).plainValues))) ∧
    ∃ net n f, Network.build (builtNodes windDrafts) windGrid .standard = .ok net ∧
      (n, f) ∈ (builtNodes windDrafts).zip net.flows ∧
      ∃ size stream, net.model.scalar? s!"size_{n.name}" = some size ∧ f.size = some size ∧
        f.inflows = [stream] ∧
        (∀ t < windGrid.size, (Series.constant windGrid (1 / 2 : Rat)).plainValues[t]? =
          some ((stream.flow.atStep t).coeff size)) ∧
        ((∀ t < windGrid.size, 0 ≤ (stream.flow.atStep t).coeff size ∧
            (stream.flow.atStep t).coeff size ≤ 1) ↔
          AreFactors (Series.constant windGrid (1 / 2 : Rat)).plainValues) := by
  have hvalid : (windDraft.scalable (.constant windGrid (1 / 2))).build.isOk = true := by
    decide +kernel
  obtain ⟨hbuild, hplain, hyield⟩ :=
    windDraft.yields_at_most_size_iff hvalid (.constant windGrid (1 / 2))
  refine ⟨hbuild, hplain, ?_⟩
  obtain ⟨n, hn⟩ := exists_of_isOk hvalid
  obtain ⟨net, hnet⟩ := exists_windNetwork
  obtain ⟨cs, groups, hc⟩ := Network.build_eq_ok_iff.1 hnet
  have hmem : n ∈ builtNodes windDrafts := by
    refine List.mem_filterMap.2 ⟨windDraft, List.mem_cons_self, ?_⟩
    change (windDraft.scalable (.constant windGrid (1 / 2))).build.toOption = some n
    rw [hn]
    rfl
  obtain ⟨f, hf⟩ := hc.exists_flows hmem
  exact ⟨net, n, f, hnet, hf, hyield n _ _ _ net f hn hnet hf⟩

/-- A thousand grams make a kilogram, so this unit has no dimension, but it is not one. -/
def kgPerG : Measure.Unit Rat := ⟨⟨1000, .dimensionless⟩, "kg/g"⟩

/-- A wind farm with a factor of half a kilogram per gram is built, though it yields five hundred
times its size. -/
theorem yields_of_kgPerG :
    Measure.Unit.read "kg/g" = .ok kgPerG ∧
    ¬((windDraft.scalable ((Series.constant windGrid (1 / 2)).withUnit kgPerG)).build.isOk = true ↔
      ((Series.constant windGrid (1 / 2)).withUnit kgPerG).isDimensionless ∧
        AreFactors ((Series.constant windGrid (1 / 2)).withUnit kgPerG).plainValues) := by
  refine ⟨by decide +kernel, fun h => ?_⟩
  obtain ⟨-, hfactors⟩ := h.1 (by decide +kernel)
  exact absurd (hfactors 500 (by decide +kernel)).2 (by decide +kernel)

end SupplyNet
