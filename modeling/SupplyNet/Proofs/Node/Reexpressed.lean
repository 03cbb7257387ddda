import Mathlib
import SupplyNet.Proofs.Measure.Reexpressed
import SupplyNet.Proofs.Node.Faultless

/-!
Drafts in other units. With any of its quantities and its given flow in another unit a draft is
built as before, or refused as before, and so is a storage.
-/
set_option autoImplicit false

namespace SupplyNet

/-! ## Parts of a node -/

structure Conversion.Reexpressed (c c' : Conversion Rat) : Prop where
  source : c'.source = c.source
  factor : c.factor.Reexpressed c'.factor

structure Storage.Reexpressed (s s' : Storage Rat) : Prop where
  costs : s.costs.Reexpressed s'.costs
  speed : s'.speed = s.speed
  storageLoss : s'.storageLoss = s.storageLoss
  chargingLoss : s'.chargingLoss = s.chargingLoss

/-- Capacity factors have no other units, as they are plain numbers. -/
inductive Role.Reexpressed {Inputs : Type} : Role Inputs Rat → Role Inputs Rat → Prop
  | fixedInput {flow flow' : Series Rat} (h : flow.Reexpressed flow') :
      Reexpressed (.fixedInput flow) (.fixedInput flow')
  | fixedOutput {inputs : Inputs} {flow flow' : Series Rat} (h : flow.Reexpressed flow') :
      Reexpressed (.fixedOutput inputs flow) (.fixedOutput inputs flow')
  | same (r : Role Inputs Rat) : Reexpressed r r

theorem Conversion.Reexpressed.symm {c c' : Conversion Rat} (h : c.Reexpressed c') :
    c'.Reexpressed c :=
  ⟨h.source.symm, h.factor.symm⟩

namespace Storage

theorem Reexpressed.symm {s s' : Storage Rat} (h : s.Reexpressed s') : s'.Reexpressed s :=
  ⟨h.costs.symm, h.speed.symm, h.storageLoss.symm, h.chargingLoss.symm⟩

/-- A storage is accepted whatever the unit of its costs is. -/
theorem carries_ofParameters {costs costs' : Quantity Rat} (h : costs.Reexpressed costs')
    (speed storageLoss chargingLoss : Rat) :
    Carries Storage.Reexpressed (ofParameters costs speed storageLoss chargingLoss)
      (ofParameters costs' speed storageLoss chargingLoss) := by
  intro s hs
  obtain ⟨rfl, rfl, rfl, rfl⟩ := ofParameters_eq_ok_iff.1 hs
  exact ⟨{ s with costs := costs', costs_nonneg := h.neg_iff.not.2 s.costs_nonneg },
    ofParameters_eq_ok_iff.2 ⟨rfl, rfl, rfl, rfl⟩, h, rfl, rfl, rfl⟩

end Storage

namespace Role.Reexpressed

variable {Inputs Inputs' ε : Type} {r r' : Role Inputs Rat} (h : r.Reexpressed r')

include h

theorem symm : r'.Reexpressed r := by
  cases h with
  | fixedInput h => exact .fixedInput h.symm
  | fixedOutput h => exact .fixedOutput h.symm
  | same r => exact .same r

theorem kind : r'.kind = r.kind := by
  cases h <;> rfl

theorem inputs? : r'.inputs? = r.inputs? := by
  cases h <;> rfl

theorem profile? : Option.Rel Series.Reexpressed r.profile? r'.profile? := by
  cases h with
  | fixedInput h => exact .some h
  | fixedOutput h => exact .some h
  | same r =>
    cases r.profile? with
    | none => exact .none
    | some s => exact .some (.refl s)

theorem eq_scalableInput {factors : Series Rat} (hr : r' = .scalableInput factors) :
    r = .scalableInput factors := by
  cases h with
  | fixedInput h => cases hr
  | fixedOutput h => cases hr
  | same r => exact hr

theorem carries_mapInputs (f : Inputs → Except ε Inputs') :
    Carries Role.Reexpressed (r.mapInputs f) (r'.mapInputs f) := by
  cases h with
  | fixedInput h => exact .ok (.fixedInput h)
  | fixedOutput h => exact Carries.bind_same fun inputs _ => .ok (.fixedOutput h)
  | same r => exact fun role hrole => ⟨role, hrole, .same role⟩

end Role.Reexpressed

/-! ## Drafts and nodes -/

structure Draft.Reexpressed (d d' : Draft Rat) : Prop where
  name : d'.name = d.name
  role : d.role.Reexpressed d'.role
  costs : Option.Rel Quantity.Reexpressed d.costs d'.costs
  convertFactor : Option.Rel Quantity.Reexpressed d.convertFactor d'.convertFactor
  conversions : Option.Rel (Keyed.Related Conversion.Reexpressed) d.conversions d'.conversions
  inputProportions :
    Option.Rel (Keyed.Related Quantity.Reexpressed) d.inputProportions d'.inputProportions
  outputProportions :
    Option.Rel (Keyed.Related Quantity.Reexpressed) d.outputProportions d'.outputProportions
  sizeCommodity : d'.sizeCommodity = d.sizeCommodity
  outputCommodity : d'.outputCommodity = d.outputCommodity
  storage : Option.Rel Storage.Reexpressed d.storage d'.storage
  inputFlowCosts : Option.Rel Quantity.Reexpressed d.inputFlowCosts d'.inputFlowCosts

structure Node.Reexpressed (n n' : Node Rat) : Prop where
  name : n'.name = n.name
  role : n.role.Reexpressed n'.role
  costs : Option.Rel Quantity.Reexpressed n.costs n'.costs
  convertFactor : n.convertFactor.Reexpressed n'.convertFactor
  conversions : Option.Rel (Keyed.Related Conversion.Reexpressed) n.conversions n'.conversions
  inputProportions :
    Option.Rel (Keyed.Related Quantity.Reexpressed) n.inputProportions n'.inputProportions
  outputProportions :
    Option.Rel (Keyed.Related Quantity.Reexpressed) n.outputProportions n'.outputProportions
  sizeCommodity : n'.sizeCommodity = n.sizeCommodity
  outputCommodity : n'.outputCommodity = n.outputCommodity
  storage : Option.Rel Storage.Reexpressed n.storage n'.storage
  inputFlowCosts : Option.Rel Quantity.Reexpressed n.inputFlowCosts n'.inputFlowCosts

namespace Draft.Reexpressed

variable {d d' : Draft Rat} (h : d.Reexpressed d')

include h

theorem symm : d'.Reexpressed d where
  name := h.name.symm
  role := h.role.symm
  costs := rel_symm h.costs fun _ _ hq => hq.symm
  convertFactor := rel_symm h.convertFactor fun _ _ hq => hq.symm
  conversions := rel_symm h.conversions fun _ _ hc => hc.symm fun _ _ hc => hc.symm
  inputProportions := rel_symm h.inputProportions fun _ _ hr => hr.symm fun _ _ hq => hq.symm
  outputProportions := rel_symm h.outputProportions fun _ _ hr => hr.symm fun _ _ hq => hq.symm
  sizeCommodity := h.sizeCommodity.symm
  outputCommodity := h.outputCommodity.symm
  storage := rel_symm h.storage fun _ _ hs => hs.symm
  inputFlowCosts := rel_symm h.inputFlowCosts fun _ _ hq => hq.symm

theorem inputs : d'.inputs = d.inputs := by
  unfold Draft.inputs
  rw [h.role.inputs?]

/-- A check sees the sign of a quantity and whether there is one. -/
theorem faultless {commodities : List String} (hd : d.Faultless commodities) :
    d'.Faultless commodities where
  factors factors hr := hd.factors factors (h.role.eq_scalableInput hr)
  flow _ flow _ v _ := Scalar.isFinite_rat v
  costs costs' hc := by
    obtain ⟨costs, hcosts, hq⟩ := exists_of_mem_rel h.costs hc
    exact hq.neg_iff.not.2 (hd.costs costs hcosts)
  fixedOutput hk := by
    rw [h.role.kind] at hk
    exact (hd.fixedOutput hk).imp_right (eq_none_iff_of_rel h.storage).2
  generic hk := by
    rw [h.role.kind] at hk
    obtain ⟨hfactor, hconv, hflow, houtput⟩ := hd.generic hk
    exact ⟨(eq_none_iff_of_rel h.convertFactor).2 hfactor,
      (eq_none_iff_of_rel h.conversions).2 hconv, (eq_none_iff_of_rel h.inputFlowCosts).2 hflow,
      h.outputCommodity.trans houtput⟩
  input hk := (eq_none_iff_of_rel h.inputProportions).2 (hd.input (h.role.kind ▸ hk))
  output hk := (eq_none_iff_of_rel h.outputProportions).2 (hd.output (h.role.kind ▸ hk))
  conversions conversions' hc := by
    obtain ⟨conversions, hconv, hrel⟩ := exists_of_mem_rel h.conversions hc
    obtain ⟨hfactor, hne, hsource⟩ := hd.conversions conversions hconv
    refine ⟨(eq_none_iff_of_rel h.convertFactor).2 hfactor, fun hnil => ?_, fun e' he' hne => ?_⟩
    · unfold Keyed.Related at hrel
      rw [hnil] at hrel
      exact hne (List.forall₂_nil_right_iff.1 hrel)
    · obtain ⟨e, he, -, hs⟩ := hrel.exists_of_mem he'
      rw [hs.source]
      exact hsource e he hne
  inputProportions ratios' hr := by
    obtain ⟨ratios, hratios, hrel⟩ := exists_of_mem_rel h.inputProportions hr
    obtain ⟨hkeys, hpos⟩ := hd.inputProportions ratios hratios
    refine ⟨by rw [hrel.keys, h.inputs]; exact hkeys, fun e' he' => ?_⟩
    obtain ⟨e, he, -, hq⟩ := hrel.exists_of_mem he'
    exact hq.pos_iff.2 (hpos e he)
  single hratios hconv := hd.single ((eq_none_iff_of_rel h.inputProportions).1 hratios)
    ((eq_none_iff_of_rel h.conversions).1 hconv)
  flowCosts costs' hc := by
    obtain ⟨costs, hcosts, hq⟩ := exists_of_mem_rel h.inputFlowCosts hc
    exact (hd.flowCosts costs hcosts).imp_left hq.neg_iff.not.2

theorem resolved {role role' : Role Inlets Rat} (hrole : role.Reexpressed role') :
    (d.resolved role).Reexpressed (d'.resolved role') where
  name := h.name
  role := hrole
  costs := h.costs
  convertFactor := getD_of_rel h.convertFactor (.refl _)
  conversions := h.conversions
  inputProportions := h.inputProportions
  outputProportions := h.outputProportions
  sizeCommodity := h.sizeCommodity
  outputCommodity := h.outputCommodity
  storage := h.storage
  inputFlowCosts := h.inputFlowCosts

/-- A draft is built whatever units its values are in, into a node with the same values. -/
theorem carries_build : Carries Node.Reexpressed d.build d'.build := by
  intro n hn
  obtain ⟨hkind, hname, hinputs, role, hrole, rfl, hfaults⟩ := Draft.build_eq_ok_iff.1 hn
  obtain ⟨role', hrole', hrel⟩ := h.role.carries_mapInputs (Draft.resolveInputs d.name) role hrole
  have hresolved := h.resolved hrel
  have hcommodities : (d'.resolved role').inputCommodities = (d.resolved role).inputCommodities := by
    unfold Node.inputCommodities
    rw [hresolved.role.inputs?]
  refine ⟨d'.resolved role', Draft.build_eq_ok_iff.2 ⟨?_, ?_, ?_, role', ?_, rfl, ?_⟩, hresolved⟩
  · rwa [h.role.kind]
  · rwa [h.name]
  · rwa [h.name, h.inputs]
  · rwa [h.name]
  · rw [hcommodities, Draft.faults_eq_none_iff]
    exact h.faultless (Draft.faults_eq_none_iff.1 hfaults)

end Draft.Reexpressed

end SupplyNet
