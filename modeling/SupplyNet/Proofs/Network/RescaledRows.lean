import Mathlib
import SupplyNet.Proofs.Network.RenamedRows
import SupplyNet.Proofs.Network.RescaledFlows

/-!
Conditions and costs in other units. Each condition of a node is multiplied by a positive factor,
that of the commodity it balances or limits, and the costs stay the same.
-/
set_option autoImplicit false

namespace SupplyNet

variable {σ : Var → Rat} {k : Rat} {factor : String → Rat}

/-- The conditions of a name for all time steps are multiplied by one factor. -/
theorem rescaled_rowsOver (steps : Nat) (name : String) (relation : Relation) (hk : 0 < k)
    {lhs lhs' : Nat → LinearExpr Rat} (h : ∀ t, (lhs t).Rescaled σ k (lhs' t)) :
    List.Forall₂ (Constraint.Rescaled σ) (rowsOver steps name relation lhs)
      (rowsOver steps name relation lhs') :=
  forall₂_rowsOver fun t => ⟨rfl, k, hk, h t, (mul_zero k).symm⟩

namespace NodeFlows.Rescaled

variable {f f' : NodeFlows Rat} (h : f.Rescaled σ factor f')

include h

/-- A balance counts in the unit of its output. -/
theorem balanceAt (hours : Rat) {output source : String}
    (ho : output ∈ f.outflows.map (·.commodity)) {inputs inputs' : List (Flow Rat)}
    (hi : List.Forall₂ (Flow.Rescaled σ (factor source)) inputs inputs') {q q' : Rat}
    (hq : q' * factor source = factor output * q) (t : Nat) :
    (Node.balanceAt hours f output inputs q t).Rescaled σ (factor output)
      (Node.balanceAt hours f' output inputs' q' t) := by
  have hflows := Flow.Rescaled.sumAt (rescaled_flowsOf h.outflows output) t
  have hinputs := (Flow.Rescaled.sumAt hi t).scale hq
  unfold Node.balanceAt
  rw [h.storage]
  cases hs : f.storage with
  | none => exact hflows.sub hinputs
  | some s =>
    obtain ⟨commodity, -, hcounts, hstored⟩ := h.stored s hs
    obtain ⟨o, hmem, rfl⟩ := List.mem_map.1 ho
    rw [← hstored o hmem] at hcounts
    exact (hflows.add (hcounts.netChargeRate hours t)).sub hinputs

theorem excessAt (hours : Rat) {size : Var} {commodity : String}
    (hsize : σ size = factor commodity) (hcommodity : f.sizeCommodity = some commodity) (t : Nat) :
    (Node.excessAt hours f size commodity t).Rescaled σ (factor commodity)
      (Node.excessAt hours f' size commodity t) := by
  have hflows := Flow.Rescaled.sumAt (rescaled_flowsOf h.outflows commodity) t
  unfold Node.excessAt
  rw [h.storage]
  cases hs : f.storage with
  | none => exact hflows.sub (.ofVar hsize)
  | some s =>
    obtain ⟨stored, hstored, hcounts, -⟩ := h.stored s hs
    rw [hcommodity, Option.some.injEq] at hstored
    rw [← hstored] at hcounts
    exact (hflows.add (hcounts.chargeRate hours t)).sub (.ofVar hsize)

/-- All conditions of a storage count in its own unit. -/
theorem storageRows (hpos : ∀ commodity, 0 < factor commodity) (n : Node Rat) (steps : Nat)
    (hours : Rat) : List.Forall₂ (Constraint.Rescaled σ) (n.storageRows steps hours f)
      (n.storageRows steps hours f') := by
  unfold Node.storageRows
  rw [h.storage]
  cases n.storage with
  | none => exact .nil
  | some storage =>
    cases hs : f.storage with
    | none => exact .nil
    | some s =>
      obtain ⟨commodity, -, hcounts, -⟩ := h.stored s hs
      have hrow : ∀ (name : String) (relation : Relation) {e e' : LinearExpr Rat},
          e.Rescaled σ (factor commodity) e' →
            Constraint.Rescaled σ ⟨name, e, relation, 0⟩ ⟨name, e', relation, 0⟩ :=
        fun _ _ _ _ he => ⟨rfl, _, hpos commodity, he, (mul_zero _).symm⟩
      refine List.rel_flatMap (R := Eq) (List.forall₂_same.2 fun _ _ => rfl) ?_
      rintro t _ rfl
      have hlevel := rescaled_varAt hcounts.level t
      have hcharge := rescaled_varAt hcounts.charge t
      have hdischarge := rescaled_varAt hcounts.discharge t
      have hlast := rescaled_termAt hcounts.level ((t + steps - 1) % steps)
        (1 - storage.storageLoss)
      have hstored := rescaled_termAt hcounts.charge t (1 - storage.chargingLoss)
      have hspeed : (LinearExpr.term s.size (storage.speed * hours)).Rescaled σ (factor commodity)
          (.term s.size (storage.speed * hours)) := .term (by rw [hcounts.size, mul_comm])
      exact .cons (hrow _ _ (hcharge.sub hspeed)) <|
        .cons (hrow _ _ (hdischarge.sub hspeed)) <|
        .cons (hrow _ _ (hlevel.sub (.ofVar hcounts.size))) <|
        .cons (hrow _ _ (((hlevel.sub hlast).sub hstored).add hdischarge)) .nil

theorem carries_sizeRows (hpos : ∀ commodity, 0 < factor commodity) (n : Node Rat) (steps : Nat)
    (hours : Rat) : Carries (List.Forall₂ (Constraint.Rescaled σ)) (n.sizeRows steps hours f)
      (n.sizeRows steps hours f') := by
  unfold Node.sizeRows
  rw [h.size, h.sizeCommodity]
  cases hs : f.size with
  | none => exact Carries.ok .nil
  | some size =>
    obtain ⟨commodity, hcommodity, hsize⟩ := h.sized size hs
    rw [hcommodity]
    dsimp only
    split
    · exact Carries.ok .nil
    · exact Carries.ok (rescaled_rowsOver steps _ _ (hpos commodity) fun t =>
        h.excessAt hours hsize hcommodity t)

end NodeFlows.Rescaled

/-! ## Proportions -/

/-- A share in proportion to a ratio has no unit. -/
structure Node.ProportionGroup.Rescaled (σ : Var → Rat) (g g' : Node.ProportionGroup Rat) :
    Prop where
  key : g'.key = g.key
  share : ∀ t, (g.shareAt t).Rescaled σ 1 (g'.shareAt t)

namespace Recounting

variable {nodes : List (Node Rat)} {catalogue catalogue' : Catalogue Rat} {n : Node Rat}
variable {c : NodeCommodities} {steps : Nat} {f f' : NodeFlows Rat}
variable {streams streams' : List (Stream Rat)}
variable (h : Recounting nodes catalogue catalogue')

include h

/-- The ratio of a group counts in the unit of its flows. -/
theorem carries_proportionGroup
    (hs : List.Forall₂ (Stream.Rescaled σ (catalogue.factor catalogue')) streams streams')
    (hone : OneCommodityEach streams) (side : Direction) (byCommodity : Bool) (key : String)
    {ratio : Quantity Rat} (hratio : ratio.unit.isSome = true) :
    Carries (Node.ProportionGroup.Rescaled σ)
      (n.proportionGroup catalogue side streams byCommodity key ratio)
      (n.proportionGroup catalogue' side streams' byCommodity key ratio) := by
  have hsharing : List.Forall₂ (Stream.Rescaled σ (catalogue.factor catalogue'))
      (Node.sharing streams byCommodity key) (Node.sharing streams' byCommodity key) := by
    refine List.rel_filter (fun s s' hss => ?_) hs
    dsimp only
    rw [hss.commodity, hss.neighbour]
  unfold Node.proportionGroup
  dsimp only
  cases hmembers : Node.sharing streams byCommodity key with
  | nil => exact Carries.of_error _ _
  | cons first rest =>
    have hall : ∀ s ∈ Node.sharing streams byCommodity key, s.commodity = first.commodity :=
      fun s hmem => Node.commodity_of_sharing hone hmem (hmembers ▸ List.mem_cons_self)
    have hflows := rescaled_flows hsharing hall
    rw [hmembers] at hsharing hflows
    obtain ⟨first', rest', hfirst, -, hmembers'⟩ := List.forall₂_cons_left_iff.1 hsharing
    rw [hmembers'] at hflows ⊢
    dsimp only
    rw [hfirst.commodity]
    refine ((h.carries_unitOf first.commodity).mapError _).bind fun u u' hu => ?_
    refine ((hu.carries_magnitudeIn (h.factor_ne_zero _) hratio).mapError _).bind ?_
    intro value value' hvalue
    split
    · next hpos =>
      rw [if_pos (by rw [hvalue]; exact mul_pos (h.factor_pos _) hpos)]
      refine Carries.ok ⟨rfl, fun t => (Flow.Rescaled.sumAt hflows t).scale ?_⟩
      rw [hvalue, one_mul, one_div_mul_eq_div, div_mul_cancel_left₀ (h.factor_ne_zero _), one_div]
    · exact Carries.of_error _ _

theorem carries_proportionRows
    (hs : List.Forall₂ (Stream.Rescaled σ (catalogue.factor catalogue')) streams streams')
    (hone : OneCommodityEach streams) (side : Direction) {ratios : Option (Keyed (Quantity Rat))}
    (hratios : ∀ l ∈ ratios, ∀ e ∈ l.entries, e.2.unit.isSome = true) :
    Carries (List.Forall₂ (Constraint.Rescaled σ))
      (n.proportionRows catalogue steps side streams ratios)
      (n.proportionRows catalogue' steps side streams' ratios) := by
  unfold Node.proportionRows
  cases ratios with
  | none => exact Carries.ok .nil
  | some ratios =>
    dsimp only
    rw [commodities_of_rescaled hs]
    refine (Carries.mapM (List.forall₂_same.2 fun p hp =>
      h.carries_proportionGroup hs hone side _ p.1 (hratios ratios rfl p hp))).bind ?_
    intro groups groups' hgroups
    cases hgroups with
    | nil => exact Carries.ok .nil
    | cons hreference hothers =>
      refine Carries.ok (List.rel_flatMap hothers fun g g' hg => ?_)
      rw [hg.key]
      exact rescaled_rowsOver steps _ _ one_pos fun t => (hreference.share t).sub (hg.share t)

/-! ## Flow balance -/

variable (hn : n ∈ nodes) (hf : f.Rescaled σ (catalogue.factor catalogue') f')
variable (hb : n.Bound catalogue (outlets nodes n.name) (registry nodes steps) c f)

include hn hf hb

/-- What an output is converted from is of one commodity, and the factor leads from the unit of that
commodity to the unit of the output. -/
theorem carries_conversion {output : String} (ho : output ∈ Node.outputNames nodes n) :
    Carries (fun p p' => ∃ source,
        List.Forall₂ (Flow.Rescaled σ (catalogue.factor catalogue' source)) p.1 p'.1 ∧
        p'.2 * catalogue.factor catalogue' source = catalogue.factor catalogue' output * p.2)
      (n.conversion catalogue f output) (n.conversion catalogue' f' output) := by
  have hmeasured := h.measured n hn
  unfold Node.conversion
  cases hconv : n.conversions with
  | some conversions =>
    dsimp only
    cases hfind : conversions.find? output with
    | none => exact Carries.of_error _ _
    | some c =>
      have hunit := hmeasured.conversions conversions hconv _ (Keyed.mem_of_find? hfind)
      refine (h.comparable.carries_factorFrom h.formed h.formed' hunit).bind fun q q' hq => ?_
      exact Carries.ok ⟨c.source, rescaled_flowsOf hf.inflows c.source, hq⟩
  | none =>
    dsimp only
    have hsingle := hmeasured.single hconv
    have hall : ∀ s ∈ f.inflows, s.commodity ∈ distinct (Node.inputNames nodes n) := by
      intro s hs
      rw [mem_distinct, ← Node.map_commodity_inflows hb]
      exact List.mem_map_of_mem hs
    rw [commodities_of_rescaled hf.inflows, Node.map_commodity_inflows hb]
    rcases hd : distinct (Node.inputNames nodes n) with _ | ⟨source, _ | ⟨second, rest⟩⟩
    · obtain ⟨source, hsource⟩ := List.exists_mem_of_ne_nil _ (Node.inputNames_ne_nil nodes n)
      rw [← mem_distinct, hd] at hsource
      exact absurd hsource List.not_mem_nil
    · have hsource : source ∈ Node.inputNames nodes n := by
        rw [← mem_distinct, hd]
        exact List.mem_cons_self
      have hunit := (hmeasured.factor hconv).imp_right fun hsame => hsame output ho source hsource
      refine (h.comparable.carries_factorFrom h.formed h.formed' hunit).bind fun q q' hq => ?_
      refine Carries.ok ⟨source, rescaled_flows hf.inflows fun s hs => ?_, hq⟩
      exact List.mem_singleton.1 (hd ▸ hall s hs)
    · rw [hd, List.length_cons, List.length_cons] at hsingle
      omega

theorem carries_balanceRows (hours : Rat) (outputs : List String) {output : String}
    (ho : output ∈ Node.outputNames nodes n) : Carries (List.Forall₂ (Constraint.Rescaled σ))
      (n.balanceRows catalogue steps hours f outputs output)
      (n.balanceRows catalogue' steps hours f' outputs output) := by
  refine (h.carries_conversion hn hf hb ho).bind ?_
  rintro ⟨inputs, q⟩ ⟨inputs', q'⟩ ⟨source, hi, hq⟩
  rw [← Node.map_commodity_outflows hb] at ho
  exact Carries.ok (rescaled_rowsOver steps _ _ (h.factor_pos output) fun t =>
    hf.balanceAt hours ho hi hq t)

/-- The conditions of a node come in the same order in both units. -/
theorem carries_rows (hin : OneCommodityEach f.inflows) (hout : OneCommodityEach f.outflows)
    (hours : Rat) : List.Forall₂ (Carries (List.Forall₂ (Constraint.Rescaled σ)))
      (n.rows catalogue steps hours f) (n.rows catalogue' steps hours f') := by
  have hmeasured := h.measured n hn
  unfold Node.rows
  dsimp only
  rw [commodities_of_rescaled hf.outflows]
  refine List.rel_append ?_ ?_
  · rw [List.forall₂_map_left_iff, List.forall₂_map_right_iff, List.forall₂_same]
    intro output ho
    rw [mem_distinct, Node.map_commodity_outflows hb] at ho
    exact h.carries_balanceRows hn hf hb hours _ ho
  · exact .cons (Carries.ok (hf.storageRows h.factor_pos n steps hours)) <|
      .cons (h.carries_proportionRows hf.inflows hin .input hmeasured.inputProportions) <|
      .cons (h.carries_proportionRows hf.outflows hout .output hmeasured.outputProportions) <|
      .cons (hf.carries_sizeRows h.factor_pos n steps hours) .nil

omit hb

/-! ## Costs -/

omit hn in
theorem carries_sizeUnit {commodity : String} (hcommodity : f.sizeCommodity = some commodity) :
    Carries (Measure.Unit.Recounted (catalogue.factor catalogue' commodity))
      (n.sizeUnit catalogue f) (n.sizeUnit catalogue' f') := by
  unfold Node.sizeUnit
  rw [hf.sizeCommodity, hcommodity]
  exact (h.carries_unitOf commodity).mapError _

theorem carries_sizeCosts (currency : Measure.Unit Rat) :
    Carries (LinearExpr.Rescaled σ 1) (n.sizeCosts catalogue currency f)
      (n.sizeCosts catalogue' currency f') := by
  unfold Node.sizeCosts
  rw [hf.size]
  cases hs : f.size with
  | none => exact Carries.ok (.zero σ 1)
  | some size =>
    cases hc : n.costs with
    | none => exact Carries.ok (.zero σ 1)
    | some costs =>
      obtain ⟨commodity, hcommodity, hsize⟩ := hf.sized size hs
      have hunit := (h.measured n hn).costs costs hc
      refine (h.carries_sizeUnit hf hcommodity).bind fun u u' hu => ?_
      refine ((hu.carries_ofSize (h.factor_ne_zero _) currency hunit).mapError _).bind ?_
      intro rate rate' hrate
      exact Carries.ok (.term (by rw [hsize, hrate, one_mul]))

theorem carries_storageCosts (currency : Measure.Unit Rat) :
    Carries (LinearExpr.Rescaled σ 1) (n.storageCosts catalogue currency f)
      (n.storageCosts catalogue' currency f') := by
  unfold Node.storageCosts
  rw [hf.storage]
  cases hs : f.storage with
  | none => exact Carries.ok (.zero σ 1)
  | some s =>
    cases hc : n.storage with
    | none => exact Carries.ok (.zero σ 1)
    | some storage =>
      obtain ⟨commodity, hcommodity, hcounts, -⟩ := hf.stored s hs
      have hunit := (h.measured n hn).storage storage hc
      refine (h.carries_sizeUnit hf hcommodity).bind fun u u' hu => ?_
      refine ((hu.carries_ofAmount (h.factor_ne_zero _) currency hunit).mapError _).bind ?_
      intro rate rate' hrate
      exact Carries.ok (.term (by rw [hcounts.size, hrate, one_mul]))

theorem carries_flowCosts (currency : Measure.Unit Rat) (hours : Rat) :
    Carries (LinearExpr.Rescaled σ 1) (n.flowCosts catalogue currency hours f)
      (n.flowCosts catalogue' currency hours f') := by
  unfold Node.flowCosts
  cases hc : n.inputFlowCosts with
  | none => exact Carries.ok (.zero σ 1)
  | some costs =>
    have hunit := (h.measured n hn).flowCosts costs hc
    refine Carries.foldlM hf.inflows (fun total total' s s' htotal hs => ?_) (.zero σ 1)
    rw [hs.commodity]
    refine ((h.carries_unitOf s.commodity).mapError _).bind fun u u' hu => ?_
    refine ((hu.carries_ofAmount (h.factor_ne_zero _) currency hunit).mapError _).bind ?_
    intro rate rate' hrate
    refine Carries.ok (htotal.add (hs.flow.total.scale ?_))
    rw [one_mul, ← hrate, mul_right_comm]

/-- The costs of a node are the same in both units. -/
theorem carries_totalCosts (currency : Measure.Unit Rat) (hours : Rat) :
    Carries (LinearExpr.Rescaled σ 1) (n.totalCosts catalogue currency hours f)
      (n.totalCosts catalogue' currency hours f') :=
  (h.carries_sizeCosts hn hf currency).bind fun _ _ hsize =>
    (h.carries_storageCosts hn hf currency).bind fun _ _ hstorage =>
      (h.carries_flowCosts hn hf currency hours).bind fun _ _ hflows =>
        Carries.ok ((((LinearExpr.Rescaled.zero σ 1).add hsize).add hstorage).add hflows)

end Recounting

end SupplyNet
