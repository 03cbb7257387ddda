import Mathlib
import SupplyNet.Proofs.Network.Parts
import SupplyNet.Proofs.Network.Place
import SupplyNet.Proofs.Network.Recounting
import SupplyNet.Proofs.Node.Reexpressed

/-!
Networks in other units. Whatever unit a value of a node is in, it is converted before it is used,
so nodes with values in other units make the same conditions and costs.
-/
set_option autoImplicit false

namespace SupplyNet

namespace Node.Reexpressed

variable {n n' : Node Rat} (h : n.Reexpressed n')

include h

/-! ## What does not depend on magnitudes -/

theorem samePlace : n.SamePlace n' := ⟨h.name, h.role.kind, h.role.inputs?⟩

theorem hasSize : n'.hasSize = n.hasSize := by
  have hcosts : n'.hasCosts = n.hasCosts := by
    unfold hasCosts
    have hrel := h.costs
    generalize n.costs = costs, n'.costs = costs' at hrel
    cases hrel with
    | none => rfl
    | some hq => simp only [beq_eq_decide, hq.eq_zero_iff]
  unfold Node.hasSize
  rw [hcosts, h.samePlace.kind]

theorem leafOutput : n'.leafOutput = n.leafOutput := by
  have hrel := h.conversions
  unfold Node.leafOutput
  rw [h.samePlace.kind, h.samePlace.inputCommodities, h.outputCommodity, h.name]
  generalize n.conversions = c, n'.conversions = c' at hrel
  cases hrel with
  | none => rfl
  | some hc => dsimp only; rw [hc.keys]

theorem leafInput : n'.leafInput = n.leafInput := by
  have hrel := h.conversions
  funext outflow
  unfold Node.leafInput
  rw [h.name]
  generalize n.conversions = c, n'.conversions = c' at hrel
  cases hrel with
  | none => rfl
  | some hc => dsimp only; rw [hc.map_values fun _ _ hs => hs.source.symm]

theorem conversionFault : n'.conversionFault = n.conversionFault := by
  have hrel := h.conversions
  funext outputs
  unfold Node.conversionFault
  rw [h.name, isSome_of_rel h.storage]
  generalize n.conversions = c, n'.conversions = c' at hrel
  cases hrel with
  | none => rfl
  | some hc => dsimp only; rw [hc.keys]; rfl

theorem sizeCommodityAmong : n'.sizeCommodityAmong = n.sizeCommodityAmong := by
  funext outputs
  unfold Node.sizeCommodityAmong
  rw [h.hasSize, isSome_of_rel h.storage, h.sizeCommodity, h.name]

/-- The commodities of a node are settled in the same way. -/
theorem settle {catalogue : Catalogue Rat} {served : List Outlet} {c : NodeCommodities}
    (hc : n.settle catalogue served = .ok c) : n'.settle catalogue served = .ok c := by
  obtain ⟨hout, hin, hcommodities⟩ := settle_eq_ok_iff.1 hc
  obtain ⟨hfault, hratios, hunits, size, hsize, hsame⟩ := commodities_eq_ok_iff.1 hcommodities
  refine settle_eq_ok_iff.2 ⟨?_, ?_, commodities_eq_ok_iff.2 ⟨?_, fun ratios' hr => ?_, hunits, size,
    ?_, hsame⟩⟩
  · unfold outflow asDeclared at hout ⊢
    rwa [h.leafOutput, h.outputCommodity, h.name]
  · unfold inflow at hin ⊢
    rwa [h.leafInput, h.samePlace.inputCommodities]
  · rwa [h.conversionFault]
  · obtain ⟨ratios, hratio, hrel⟩ := exists_of_mem_rel h.outputProportions hr
    obtain ⟨hkeys, hpos⟩ := proportionFault_eq_none_iff.1 (hratios ratios hratio)
    refine proportionFault_eq_none_iff.2 ⟨hrel.keys ▸ hkeys, fun e' he' => ?_⟩
    obtain ⟨e, he, -, hq⟩ := hrel.exists_of_mem he'
    exact hq.pos_iff.2 (hpos e he)
  · rwa [h.sizeCommodityAmong]

theorem sizeIn (m : Model Rat) : n'.sizeIn m = n.sizeIn m := by
  unfold Node.sizeIn
  rw [h.hasSize, h.name]

theorem storageIn (m : Model Rat) : n'.storageIn m = n.storageIn m := by
  unfold Node.storageIn
  rw [isSome_of_rel h.storage, h.name]

/-! ## Flows -/

omit h in
theorem carries_flowIn {s s' : Series Rat} (hs : s.Reexpressed s') (catalogue : Catalogue Rat)
    (commodities : List String) :
    Carries Eq (flowIn catalogue commodities s) (flowIn catalogue commodities s') :=
  Carries.bind_same fun unit _ => ((hs.carries_valuesIn unit).mapError _).bind <| by
    rintro values _ rfl
    exact .ok rfl

theorem carries_leafInflow (catalogue : Catalogue Rat) (commodity : String) (m : Model Rat) :
    Carries Eq (n.leafInflow catalogue commodity m) (n'.leafInflow catalogue commodity m) := by
  have hrole := h.role
  unfold leafInflow
  rw [h.sizeIn, h.name]
  generalize n.role = r, n'.role = r' at hrole
  cases hrole with
  | fixedInput hs => exact carries_flowIn hs catalogue [commodity]
  | fixedOutput hs => exact .ok rfl
  | same r => exact fun flow hflow => ⟨flow, hflow, rfl⟩

theorem carries_leafOutflow (catalogue : Catalogue Rat) (commodity : String) (m : Model Rat) :
    Carries Eq (n.leafOutflow catalogue commodity m) (n'.leafOutflow catalogue commodity m) := by
  have hrole := h.role
  unfold leafOutflow
  rw [h.name]
  generalize n.role = r, n'.role = r' at hrole
  cases hrole with
  | fixedInput hs => exact .ok rfl
  | fixedOutput hs => exact carries_flowIn hs catalogue [commodity]
  | same r => exact fun flow hflow => ⟨flow, hflow, rfl⟩

theorem carries_flowsIn {catalogue : Catalogue Rat} {served : List Outlet} {c : NodeCommodities}
    (hc : n.settle catalogue served = .ok c) (hk : served ≠ [] → ¬n.kind.isOutput) (m : Model Rat) :
    Carries Eq (n.flowsIn catalogue served c m) (n'.flowsIn catalogue served c m) := by
  intro f hf
  obtain ⟨inflows, outflows, hin, hout, rfl⟩ := (flowsIn_eq_ok_iff hc hk).1 hf
  have hins : Carries Eq (n.inStreams catalogue c m) (n'.inStreams catalogue c m) := by
    unfold inStreams
    rw [h.samePlace.inlets, h.name]
    split
    · exact (h.carries_leafInflow catalogue _ m).map fun _ _ hflow => by rw [hflow]
    · exact .ok rfl
  have houts : Carries Eq (n.outStreams catalogue served c m)
      (n'.outStreams catalogue served c m) := by
    unfold outStreams
    rw [h.name]
    split
    · exact (h.carries_leafOutflow catalogue _ m).map fun _ _ hflow => by rw [hflow]
    · exact .ok rfl
  obtain ⟨_, hin', rfl⟩ := hins inflows hin
  obtain ⟨_, hout', rfl⟩ := houts outflows hout
  have hk' : served ≠ [] → ¬n'.kind.isOutput := by rwa [h.samePlace.kind]
  refine ⟨_, (flowsIn_eq_ok_iff (h.settle hc) hk').2 ⟨inflows, outflows, hin', hout', rfl⟩, ?_⟩
  rw [h.sizeIn, h.storageIn]

/-! ## Conditions -/

omit h in
theorem carries_factorFrom {q q' : Quantity Rat} (hq : q.Reexpressed q')
    (catalogue : Catalogue Rat) (output source : String) :
    Carries Eq (factorFrom catalogue output source q) (factorFrom catalogue output source q') :=
  Carries.bind_same fun _ _ => Carries.bind_same fun _ _ => Carries.bind_same fun target _ =>
    (hq.carries_magnitudeIn target).mapError _

theorem carries_conversion (catalogue : Catalogue Rat) (f : NodeFlows Rat) (output : String) :
    Carries Eq (n.conversion catalogue f output) (n'.conversion catalogue f output) := by
  have hrel := h.conversions
  have hfactor := h.convertFactor
  unfold Node.conversion
  rw [h.name]
  generalize n.conversions = c, n'.conversions = c' at hrel
  cases hrel with
  | @some c c' hc =>
    have hfind := hc.find? output
    dsimp only
    generalize c.find? output = o, c'.find? output = o' at hfind
    cases hfind with
    | none => exact .of_error _ _
    | some hc =>
      dsimp only
      rw [hc.source]
      refine (carries_factorFrom hc.factor catalogue output _).bind ?_
      rintro factor _ rfl
      exact .ok rfl
  | none =>
    dsimp only
    split
    · refine (carries_factorFrom hfactor catalogue output _).bind ?_
      rintro factor _ rfl
      exact .ok rfl
    · rw [hfactor.isSome_unit]
      split
      · exact .of_error _ _
      · next hplain =>
        have hsame : n'.convertFactor = n.convertFactor := by
          rcases hfactor with hsame | ⟨v, -, hv, -⟩
          · exact hsame
          · exact absurd (by rw [hv]; rfl) hplain
        rw [hsame]
        exact .ok rfl

theorem carries_balanceRows (catalogue : Catalogue Rat) (steps : Nat) (hours : Rat)
    (f : NodeFlows Rat) (outputs : List String) (output : String) :
    Carries Eq (n.balanceRows catalogue steps hours f outputs output)
      (n'.balanceRows catalogue steps hours f outputs output) := by
  refine (h.carries_conversion catalogue f output).bind ?_
  rintro ⟨inputs, factor⟩ _ rfl
  dsimp only
  unfold balanceName
  rw [h.name]
  exact .ok rfl

theorem storageRows (steps : Nat) (hours : Rat) (f : NodeFlows Rat) :
    n'.storageRows steps hours f = n.storageRows steps hours f := by
  have hrel := h.storage
  unfold Node.storageRows
  rw [h.name]
  generalize n.storage = s, n'.storage = s' at hrel
  cases hrel with
  | none => rfl
  | some hs =>
    cases f.storage with
    | none => rfl
    | some vars =>
      dsimp only
      rw [hs.speed, hs.storageLoss, hs.chargingLoss]

omit h in
theorem carries_proportionGroup {q q' : Quantity Rat} (hq : q.Reexpressed q')
    (catalogue : Catalogue Rat) (side : Direction) (streams : List (Stream Rat))
    (byCommodity : Bool) (key : String) :
    Carries Eq (n.proportionGroup catalogue side streams byCommodity key q)
      (n'.proportionGroup catalogue side streams byCommodity key q') := by
  unfold proportionGroup
  dsimp only
  split
  · exact .of_error _ _
  · refine Carries.bind_same fun unit _ => ((hq.carries_magnitudeIn unit).mapError _).bind ?_
    rintro value _ rfl
    split
    · exact .ok rfl
    · exact .of_error _ _

theorem carries_proportionRows (catalogue : Catalogue Rat) (steps : Nat) (side : Direction)
    (streams : List (Stream Rat)) {ratios ratios' : Option (Keyed (Quantity Rat))}
    (hratios : Option.Rel (Keyed.Related Quantity.Reexpressed) ratios ratios') :
    Carries Eq (n.proportionRows catalogue steps side streams ratios)
      (n'.proportionRows catalogue steps side streams ratios') := by
  unfold proportionRows
  cases hratios with
  | none => exact .ok rfl
  | some hrel =>
    dsimp only
    rw [hrel.keys, h.name]
    refine (Carries.mapM (R := Eq) (hrel.imp fun e e' he => ?_)).bind fun groups groups' hgroups => ?_
    · rw [he.1]
      exact carries_proportionGroup he.2 catalogue side streams _ e.1
    · rw [List.forall₂_eq_eq_eq] at hgroups
      subst hgroups
      split <;> exact .ok rfl

theorem sizeRows (steps : Nat) (hours : Rat) (f : NodeFlows Rat) :
    n'.sizeRows steps hours f = n.sizeRows steps hours f := by
  unfold Node.sizeRows
  rw [h.samePlace.kind, h.name]

/-- The conditions of a node are the same. -/
theorem rows {catalogue : Catalogue Rat} {steps : Nat} {hours : Rat} {f : NodeFlows Rat}
    {rows : List (Rows Rat)} (hrows : n.rows catalogue steps hours f = rows.map .ok) :
    n'.rows catalogue steps hours f = rows.map .ok := by
  have hcarries : List.Forall₂ (Carries Eq) (n.rows catalogue steps hours f)
      (n'.rows catalogue steps hours f) := by
    unfold Node.rows
    refine List.rel_append ?_ ?_
    · rw [List.forall₂_map_left_iff, List.forall₂_map_right_iff, List.forall₂_same]
      exact fun output _ => h.carries_balanceRows catalogue steps hours f _ output
    · rw [h.storageRows, h.sizeRows]
      exact .cons (.ok rfl) <|
        .cons (h.carries_proportionRows catalogue steps .input _ h.inputProportions) <|
        .cons (h.carries_proportionRows catalogue steps .output _ h.outputProportions) <|
        .cons (fun rows hrows => ⟨rows, hrows, rfl⟩) .nil
  rw [hrows] at hcarries
  obtain ⟨rows', hrows', hsame⟩ := Carries.exists_map_ok hcarries
  rw [List.forall₂_eq_eq_eq] at hsame
  rw [hrows', hsame]

/-! ## Costs -/

theorem sizeUnit : n'.sizeUnit = n.sizeUnit := by
  funext catalogue f
  unfold Node.sizeUnit
  rw [h.name]

theorem carries_sizeCosts (catalogue : Catalogue Rat) (currency : Measure.Unit Rat)
    (f : NodeFlows Rat) :
    Carries Eq (n.sizeCosts catalogue currency f) (n'.sizeCosts catalogue currency f) := by
  have hrel := h.costs
  unfold sizeCosts Costs.ofSize
  rw [h.sizeUnit]
  generalize n.costs = costs, n'.costs = costs' at hrel
  cases hrel with
  | none => cases f.size <;> exact .ok rfl
  | some hq =>
    cases f.size with
    | none => exact .ok rfl
    | some size =>
      refine Carries.bind_same fun unit _ => ((Carries.bind_same fun target _ =>
        hq.carries_magnitudeIn target).mapError _).bind ?_
      rintro rate _ rfl
      exact .ok rfl

theorem carries_storageCosts (catalogue : Catalogue Rat) (currency : Measure.Unit Rat)
    (f : NodeFlows Rat) :
    Carries Eq (n.storageCosts catalogue currency f) (n'.storageCosts catalogue currency f) := by
  have hrel := h.storage
  unfold storageCosts Costs.ofAmount
  rw [h.sizeUnit]
  generalize n.storage = storage, n'.storage = storage' at hrel
  cases hrel with
  | none => cases f.storage <;> exact .ok rfl
  | some hs =>
    cases f.storage with
    | none => exact .ok rfl
    | some s =>
      refine Carries.bind_same fun unit _ => ((Carries.bind_same fun amount _ =>
        Carries.bind_same fun target _ => hs.costs.carries_magnitudeIn target).mapError _).bind ?_
      rintro rate _ rfl
      exact .ok rfl

theorem carries_flowCosts (catalogue : Catalogue Rat) (currency : Measure.Unit Rat) (hours : Rat)
    (f : NodeFlows Rat) : Carries Eq (n.flowCosts catalogue currency hours f)
      (n'.flowCosts catalogue currency hours f) := by
  have hrel := h.inputFlowCosts
  unfold flowCosts Costs.ofAmount
  generalize n.inputFlowCosts = costs, n'.inputFlowCosts = costs' at hrel
  cases hrel with
  | none => exact .ok rfl
  | some hq =>
    refine Carries.foldlM (S := Eq) (List.forall₂_same.2 fun _ _ => rfl) ?_ rfl
    rintro total _ stream _ rfl rfl
    refine Carries.bind_same fun unit _ => ((Carries.bind_same fun amount _ =>
      Carries.bind_same fun target _ => hq.carries_magnitudeIn target).mapError _).bind ?_
    rintro rate _ rfl
    exact .ok rfl

theorem carries_totalCosts (catalogue : Catalogue Rat) (currency : Measure.Unit Rat) (hours : Rat)
    (f : NodeFlows Rat) : Carries Eq (n.totalCosts catalogue currency hours f)
      (n'.totalCosts catalogue currency hours f) := by
  refine (h.carries_sizeCosts catalogue currency f).bind ?_
  rintro size _ rfl
  refine (h.carries_storageCosts catalogue currency f).bind ?_
  rintro storage _ rfl
  refine (h.carries_flowCosts catalogue currency hours f).bind ?_
  rintro flows _ rfl
  exact .ok rfl

end Node.Reexpressed

/-! ## Networks -/

section Network

variable {nodes nodes' : List (Node Rat)} (h : List.Forall₂ Node.Reexpressed nodes nodes')

include h

theorem samePlace_of_reexpressed : List.Forall₂ Node.SamePlace nodes nodes' :=
  h.imp fun _ _ hn => hn.samePlace

theorem variableKeys_of_reexpressed : variableKeys nodes' = variableKeys nodes :=
  variableKeys_of_samePlace (samePlace_of_reexpressed h) <| Eq.symm <|
    map_eq_map_of_forall₂ h fun _ _ hn =>
      (hn.samePlace.declaredKeys hn.hasSize (isSome_of_rel hn.storage)).symm

theorem onGrid_of_reexpressed {grid : Grid} (hgrid : OnGrid nodes grid) : OnGrid nodes' grid := by
  intro n' hn' profile' hprofile'
  have hflip : List.Forall₂ (fun n' n => Node.Reexpressed n n') nodes' nodes := h.flip
  obtain ⟨n, hn, hrel⟩ := exists_of_mem_forall₂ hflip hn'
  obtain ⟨profile, hprofile, hs⟩ := exists_of_mem_rel hrel.role.profile? hprofile'
  exact hs.grid_eq.trans (hgrid n hn profile hprofile)

variable {grid : Grid} {config : Config Rat}

/-- A node makes the same part. -/
theorem Node.Makes.reexpressed {currency : Measure.Unit Rat} {n n' : Node Rat} {p : Part Rat}
    (hn : n.Reexpressed n') (hw : Wired nodes) (hmem : n ∈ nodes)
    (hp : n.Makes nodes grid config currency p) : n'.Makes nodes' grid config currency p := by
  have houtlets : outlets nodes' n'.name = outlets nodes n.name := by
    rw [hn.name, outlets_eq_of_samePlace (samePlace_of_reexpressed h)]
  have hregistry : registry nodes' grid.size = registry nodes grid.size := by
    unfold registry
    rw [variableKeys_of_reexpressed h]
  obtain ⟨_, hflows, rfl⟩ :=
    hn.carries_flowsIn hp.settled (hw.not_isOutput_of_served hmem) _ _ hp.flows
  obtain ⟨_, hcosts, rfl⟩ := hn.carries_totalCosts _ _ _ _ _ hp.costs
  refine ⟨?_, ?_, hn.rows hp.rows, hp.admissible, hcosts⟩
  · rw [houtlets]
    exact hn.settle hp.settled
  · rw [houtlets, hregistry]
    exact hflows

theorem Network.carries_build (grid : Grid) (config : Config Rat) :
    Carries (fun net net' : Network Rat => net'.model = net.model) (build nodes grid config)
      (build nodes' grid config) := by
  intro net hnet
  have hplace := samePlace_of_reexpressed h
  obtain ⟨hw, hv, hnames, currency, parts, hcurrency, hmakes, rfl⟩ := build_eq_ok_iff_parts.1 hnet
  have hmakes' : List.Forall₂ (Node.Makes nodes' grid config currency) nodes' parts :=
    forall₂_of_forall₂ h hmakes fun n hn n' p hrel hp => hp.reexpressed h hrel hw hn
  refine ⟨.assembled nodes' grid config parts, build_eq_ok_iff_parts.2 ⟨hw.of_samePlace hplace,
    validate_of_samePlace hplace hw (onGrid_of_reexpressed h) hv,
    variableKeys_of_reexpressed h ▸ hnames, currency, parts, hcurrency, hmakes', rfl⟩, ?_⟩
  unfold assembled registry
  rw [variableKeys_of_reexpressed h]

end Network

theorem carries_mapM_build {drafts drafts' : List (Draft Rat)}
    (h : List.Forall₂ Draft.Reexpressed drafts drafts') :
    Carries (List.Forall₂ Node.Reexpressed) (drafts.mapM Draft.build) (drafts'.mapM Draft.build) :=
  Carries.mapM (h.imp fun _ _ hd => hd.carries_build)

/-- Other units change nothing. With values in other units a storage is accepted and a draft is
built if it was before, and of the nodes a network is built if it was before, with the same columns,
the same conditions and the same costs. -/
theorem Network.build_reexpressed {drafts drafts' : List (Draft Rat)}
    (h : List.Forall₂ Draft.Reexpressed drafts drafts') (grid : Grid) (config : Config Rat) :
    (∀ (costs costs' : Quantity Rat) (speed storageLoss chargingLoss : Rat),
      costs.Reexpressed costs' →
      ((∃ s, Storage.ofParameters costs speed storageLoss chargingLoss = .ok s) ↔
        ∃ s', Storage.ofParameters costs' speed storageLoss chargingLoss = .ok s') ∧
      ∀ s s', Storage.ofParameters costs speed storageLoss chargingLoss = .ok s →
        Storage.ofParameters costs' speed storageLoss chargingLoss = .ok s' → s.Reexpressed s') ∧
    List.Forall₂ (fun d d' => (∃ n, d.build = .ok n) ↔ ∃ n', d'.build = .ok n') drafts drafts' ∧
    ∀ nodes nodes', drafts.mapM Draft.build = .ok nodes → drafts'.mapM Draft.build = .ok nodes' →
      ((∃ net, build nodes grid config = .ok net) ↔
        ∃ net', build nodes' grid config = .ok net') ∧
      ∀ net net', build nodes grid config = .ok net → build nodes' grid config = .ok net' →
        net'.model = net.model := by
  have hsymm : List.Forall₂ Draft.Reexpressed drafts' drafts := h.flip.imp fun _ _ hd => hd.symm
  refine ⟨fun costs costs' speed storageLoss chargingLoss hq => ?_, ?_, ?_⟩
  · have hcarries := Storage.carries_ofParameters hq speed storageLoss chargingLoss
    exact ⟨hcarries.succeeds_iff (Storage.carries_ofParameters hq.symm _ _ _),
      fun _ _ => hcarries.rel⟩
  · exact h.imp fun d d' hd => hd.carries_build.succeeds_iff hd.symm.carries_build
  · intro nodes nodes' hnodes hnodes'
    have hcarries := carries_build ((carries_mapM_build h).rel hnodes hnodes') grid config
    have hback := carries_build ((carries_mapM_build hsymm).rel hnodes' hnodes) grid config
    exact ⟨hcarries.succeeds_iff hback, fun _ _ => hcarries.rel⟩

/-! ## The same gas in other units -/

/-- What is read in one unit and converted to another one. -/
theorem Quantity.reexpressed_ofText {m m' : Rat} {text text' : String}
    (hread : (Measure.Unit.read (K := Rat) text).isOk = true)
    (h : Measure.Unit.read text' >>= (ofText m text).convert = .ok (ofText m' text')) :
    (ofText m text).Reexpressed (ofText m' text') := by
  obtain ⟨v, hv⟩ := exists_of_isOk hread
  obtain ⟨u, hu, hconvert⟩ := bind_eq_ok_iff.1 h
  refine .inr ⟨v, u, ?_, Measure.Unit.formed_of_read hv, Measure.Unit.formed_of_read hu, hconvert⟩
  unfold ofText
  rw [hv]
  rfl

theorem Series.reexpressed_ofText {s s' : Series Rat} {text text' : String}
    (hs : s.unit = (Measure.Unit.read text).toOption)
    (hs' : s'.unit = (Measure.Unit.read text').toOption) (hgrid : s'.grid = s.grid)
    (hread : (Measure.Unit.read (K := Rat) text).isOk = true)
    (h : Measure.Unit.read text' >>= s.valuesIn = .ok s'.values) : s.Reexpressed s' := by
  obtain ⟨v, hv⟩ := exists_of_isOk hread
  obtain ⟨u, hu, hvalues⟩ := bind_eq_ok_iff.1 h
  rw [hv] at hs
  rw [hu] at hs'
  exact .inr ⟨hgrid, v, u, hs, Measure.Unit.formed_of_read hv, Measure.Unit.formed_of_read hu, hs',
    hvalues⟩

/-- The battery with its costs in another unit. -/
def gasBattery' : Storage Rat :=
  { windBattery with costs := .ofText 2000 "EUR/MWh", costs_nonneg := by decide +kernel }

/-- The wind farm and the town that it supplies with gas, with all values in other units. -/
def gasDrafts' : List (Draft Rat) :=
  [{ name := "wind", role := .scalableInput (.constant windGrid (1 / 2)),
      costs := some (.ofText 900 "EUR/kW") },
    { name := "hub", role := .generic ⟨["wind"], .single "electricity"⟩,
      storage := some gasBattery' },
    { name := "plant", role := .generic ⟨["hub"], .single "electricity"⟩,
      costs := some (.ofText 300000 "EUR/MW"), convertFactor := some (.ofText (3 / 5) "J/(W*s)"),
      inputFlowCosts := some (.ofText (3 / 1000) "EUR/kWh") },
    { name := "town",
      role := .fixedOutput ⟨["plant"], .single "gas"⟩
        { Series.constant windGrid 5000 with unit := (Measure.Unit.read "kW").toOption } }]

theorem reexpressed_gasDrafts : List.Forall₂ Draft.Reexpressed gasDrafts gasDrafts' := by
  have hcosts : (Quantity.ofText 900 "kEUR/MW").Reexpressed (.ofText 900 "EUR/kW") :=
    Quantity.reexpressed_ofText (by decide +kernel) (by decide +kernel)
  have hbattery : gasBattery.Reexpressed gasBattery' :=
    ⟨Quantity.reexpressed_ofText (by decide +kernel) (by decide +kernel), rfl, rfl, rfl⟩
  have hplant : (Quantity.ofText 300 "EUR/kW").Reexpressed (.ofText 300000 "EUR/MW") :=
    Quantity.reexpressed_ofText (by decide +kernel) (by decide +kernel)
  have hfactor : (Quantity.ofText 600 "kW/MW").Reexpressed (.ofText (3 / 5) "J/(W*s)") :=
    Quantity.reexpressed_ofText (by decide +kernel) (by decide +kernel)
  have hflow : (Quantity.ofText 3 "EUR/MWh").Reexpressed (.ofText (3 / 1000) "EUR/kWh") :=
    Quantity.reexpressed_ofText (by decide +kernel) (by decide +kernel)
  have htown : ({ Series.constant windGrid 5 with unit := (Measure.Unit.read "MW").toOption } :
      Series Rat).Reexpressed
        { Series.constant windGrid 5000 with unit := (Measure.Unit.read "kW").toOption } :=
    Series.reexpressed_ofText rfl rfl rfl (by decide +kernel) (by decide +kernel)
  exact .cons ⟨rfl, .same _, .some hcosts, .none, .none, .none, .none, rfl, rfl, .none, .none⟩ <|
    .cons ⟨rfl, .same _, .none, .none, .none, .none, .none, rfl, rfl, .some hbattery, .none⟩ <|
    .cons ⟨rfl, .same _, .some hplant, .some hfactor, .none, .none, .none, rfl, rfl, .none,
      .some hflow⟩ <|
    .cons ⟨rfl, .fixedOutput htown, .none, .none, .none, .none, .none, rfl, rfl, .none, .none⟩ .nil

/-- The same columns, conditions and costs for the same town. -/
theorem build_reexpressed_gasDrafts :
    ∃ nodes nodes' net net', gasDrafts.mapM Draft.build = .ok nodes ∧
      gasDrafts'.mapM Draft.build = .ok nodes' ∧
      Network.build nodes windGrid .standard = .ok net ∧
      Network.build nodes' windGrid .standard = .ok net' ∧ net'.model = net.model := by
  obtain ⟨-, -, hsame⟩ := Network.build_reexpressed reexpressed_gasDrafts windGrid .standard
  obtain ⟨nodes, hnodes⟩ :=
    exists_of_isOk (show (gasDrafts.mapM Draft.build).isOk = true by decide +kernel)
  obtain ⟨nodes', hnodes'⟩ :=
    exists_of_isOk (show (gasDrafts'.mapM Draft.build).isOk = true by decide +kernel)
  obtain ⟨hiff, hmodel⟩ := hsame nodes nodes' hnodes hnodes'
  have hbuild : ∃ net, (gasDrafts.mapM Draft.build).toOption.bind
      (fun nodes => (Network.build nodes windGrid .standard).toOption) = some net :=
    Option.isSome_iff_exists.1 (by decide +kernel)
  rw [hnodes] at hbuild
  obtain ⟨net, hnet⟩ := hbuild
  have hnet : Network.build nodes windGrid .standard = .ok net := toOption_eq_some_iff.1 hnet
  obtain ⟨net', hnet'⟩ := hiff.1 ⟨net, hnet⟩
  exact ⟨nodes, nodes', net, net', hnodes, hnodes', hnet, hnet', hmodel net net' hnet hnet'⟩

end SupplyNet
