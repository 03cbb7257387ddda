import Mathlib
import SupplyNet.Network.Costs
import SupplyNet.Proofs.Network.RenamedFlows

/-!
Conditions and costs over renamed columns. Whatever a node makes of its flows, it makes of the same
flows over other columns too, and their order does not count.
-/
set_option autoImplicit false

namespace SupplyNet

variable {φ : Var ≃ Var}

/-! ## Conditions for each step -/

theorem forall₂_rowsOver {R : Constraint Rat → Constraint Rat → Prop} {steps : Nat} {name : String}
    {relation : Relation} {lhs lhs' : Nat → LinearExpr Rat}
    (h : ∀ t, R ⟨s!"{name}[{t}]", lhs t, relation, 0⟩ ⟨s!"{name}[{t}]", lhs' t, relation, 0⟩) :
    List.Forall₂ R (rowsOver steps name relation lhs) (rowsOver steps name relation lhs') := by
  unfold rowsOver
  rw [List.forall₂_map_left_iff, List.forall₂_map_right_iff, List.forall₂_same]
  exact fun t _ => h t

theorem renamed_rowsOver (steps : Nat) (name : String) (relation : Relation)
    {lhs lhs' : Nat → LinearExpr Rat} (h : ∀ t, (lhs t).Renamed φ (lhs' t)) :
    List.Forall₂ (Constraint.Renamed φ) (rowsOver steps name relation lhs)
      (rowsOver steps name relation lhs') :=
  forall₂_rowsOver fun t => ⟨rfl, h t, rfl, rfl⟩

/-- The flow to or from a neighbour has one commodity. -/
def OneCommodityEach (streams : List (Stream Rat)) : Prop :=
  ∀ s ∈ streams, ∀ s' ∈ streams, s.neighbour = s'.neighbour → s.commodity = s'.commodity

namespace Node

variable {n : Node Rat} {f f' : NodeFlows Rat} {catalogue : Catalogue Rat}
variable {streams streams' : List (Stream Rat)}

/-! ## Flow balance -/

theorem carries_conversion (h : f.Renamed φ f') (output : String) :
    Carries (fun p p' => Matched (Flow.Renamed φ) p.1 p'.1 ∧ p'.2 = p.2)
      (n.conversion catalogue f output) (n.conversion catalogue f' output) := by
  have hins : Matched (Stream.Renamed φ) f.inflows f'.inflows := .of_forall₂ h.inflows
  unfold conversion
  cases n.conversions with
  | some conversions =>
    dsimp only
    cases conversions.find? output with
    | some c => exact Carries.bind_same fun factor _ => Carries.ok ⟨matched_flowsOf hins _, rfl⟩
    | none => exact Carries.of_error _ _
  | none =>
    dsimp only
    rw [distinct_commodities hins]
    split
    · exact Carries.bind_same fun factor _ => Carries.ok ⟨matched_flows hins, rfl⟩
    · split
      · exact Carries.of_error _ _
      · exact Carries.ok ⟨matched_flows hins, rfl⟩

theorem renamed_balanceAt (h : f.Renamed φ f') (hours : Rat) (output : String)
    {inputs inputs' : List (Flow Rat)} (hi : Matched (Flow.Renamed φ) inputs inputs') (factor : Rat)
    (t : Nat) : (balanceAt hours f output inputs factor t).Renamed φ
      (balanceAt hours f' output inputs' factor t) := by
  have hflows := Flow.Renamed.sumAt (matched_flowsOf h.outflows output) t
  have hinputs := (Flow.Renamed.sumAt hi t).scale factor
  unfold balanceAt
  rw [h.storage]
  cases f.storage with
  | none => exact hflows.sub hinputs
  | some s => exact (hflows.add (s.renamed_netChargeRate hours t)).sub hinputs

theorem carries_balanceRows (h : f.Renamed φ f') (steps : Nat) (hours : Rat)
    (outputs : List String) (output : String) : Carries (List.Forall₂ (Constraint.Renamed φ))
      (n.balanceRows catalogue steps hours f outputs output)
      (n.balanceRows catalogue steps hours f' outputs output) := by
  refine (carries_conversion h output).bind ?_
  rintro ⟨inputs, factor⟩ ⟨inputs', factor'⟩ ⟨hi, hfactor⟩
  dsimp only at hi hfactor
  subst hfactor
  exact Carries.ok (renamed_rowsOver steps _ _ fun t => renamed_balanceAt h hours output hi _ t)

/-! ## Storage -/

theorem renamed_storageRows (h : f.Renamed φ f') (steps : Nat) (hours : Rat) :
    List.Forall₂ (Constraint.Renamed φ) (n.storageRows steps hours f)
      (n.storageRows steps hours f') := by
  unfold storageRows
  rw [h.storage]
  cases n.storage with
  | none => exact .nil
  | some storage =>
    cases f.storage with
    | none => exact .nil
    | some s =>
      refine List.rel_flatMap (R := Eq) (List.forall₂_same.2 fun _ _ => rfl) ?_
      rintro t _ rfl
      have hlevel := StorageVars.renamed_varAt (φ := φ) s.level t
      have hcharge := StorageVars.renamed_varAt (φ := φ) s.charge t
      have hdischarge := StorageVars.renamed_varAt (φ := φ) s.discharge t
      have hlast := StorageVars.renamed_termAt (φ := φ) s.level ((t + steps - 1) % steps)
        (1 - storage.storageLoss)
      have hstored := StorageVars.renamed_termAt (φ := φ) s.charge t (1 - storage.chargingLoss)
      exact .cons ⟨rfl, hcharge.sub (.term s.size _), rfl, rfl⟩ <|
        .cons ⟨rfl, hdischarge.sub (.term s.size _), rfl, rfl⟩ <|
        .cons ⟨rfl, hlevel.sub (.ofVar s.size), rfl, rfl⟩ <|
        .cons ⟨rfl, ((hlevel.sub hlast).sub hstored).add hdischarge, rfl, rfl⟩ .nil

/-! ## Proportions -/

structure ProportionGroup.Renamed (φ : Var ≃ Var) (g g' : ProportionGroup Rat) : Prop where
  key : g'.key = g.key
  flows : Matched (Flow.Renamed φ) g.flows g'.flows
  ratio : g'.ratio = g.ratio

theorem ProportionGroup.Renamed.shareAt {g g' : ProportionGroup Rat} (h : g.Renamed φ g')
    (t : Nat) : (g.shareAt t).Renamed φ (g'.shareAt t) := by
  unfold ProportionGroup.shareAt
  rw [h.ratio]
  exact (Flow.Renamed.sumAt h.flows t).scale _

theorem matched_sharing (h : Matched (Stream.Renamed φ) streams streams') (byCommodity : Bool)
    (key : String) : Matched (Stream.Renamed φ) (sharing streams byCommodity key)
      (sharing streams' byCommodity key) :=
  h.filter fun s s' hs => by rw [hs.commodity, hs.neighbour]

/-- Flows that share a ratio have the same commodity. -/
theorem commodity_of_sharing (hone : OneCommodityEach streams) {byCommodity : Bool} {key : String}
    {s s' : Stream Rat} (hs : s ∈ sharing streams byCommodity key)
    (hs' : s' ∈ sharing streams byCommodity key) : s.commodity = s'.commodity := by
  obtain ⟨hmem, hkey⟩ := List.mem_filter.1 hs
  obtain ⟨hmem', hkey'⟩ := List.mem_filter.1 hs'
  cases byCommodity with
  | true => exact (of_decide_eq_true hkey).trans (of_decide_eq_true hkey').symm
  | false =>
    exact hone s hmem s' hmem' ((of_decide_eq_true hkey).trans (of_decide_eq_true hkey').symm)

/-- The ratio of a group counts in the same unit, whichever flow of the group comes first. -/
theorem carries_proportionGroup (h : Matched (Stream.Renamed φ) streams streams')
    (hone : OneCommodityEach streams) (side : Direction) (byCommodity : Bool) (key : String)
    (ratio : Quantity Rat) : Carries (ProportionGroup.Renamed φ)
      (n.proportionGroup catalogue side streams byCommodity key ratio)
      (n.proportionGroup catalogue side streams' byCommodity key ratio) := by
  have hmatched := matched_sharing h byCommodity key
  unfold proportionGroup
  dsimp only
  cases hmembers : sharing streams byCommodity key with
  | nil => exact Carries.of_error _ _
  | cons first rest =>
    rw [hmembers] at hmatched
    cases hmembers' : sharing streams' byCommodity key with
    | nil =>
      rw [hmembers'] at hmatched
      exact absurd hmatched.length_eq (by simp)
    | cons first' rest' =>
      rw [hmembers'] at hmatched
      have hfirst : first'.commodity = first.commodity :=
        hmatched.forall_mem (fun s hs s' hss => hss.commodity.trans (commodity_of_sharing hone
          (hmembers ▸ hs) (hmembers ▸ List.mem_cons_self))) first' List.mem_cons_self
      dsimp only
      rw [hfirst]
      refine Carries.bind_same fun unit _ => Carries.bind_same fun value _ => ?_
      split
      · exact Carries.ok ⟨rfl, matched_flows hmatched, rfl⟩
      · exact Carries.of_error _ _

theorem carries_proportionRows (h : Matched (Stream.Renamed φ) streams streams')
    (hone : OneCommodityEach streams) (steps : Nat) (side : Direction)
    (ratios : Option (Keyed (Quantity Rat))) : Carries (List.Forall₂ (Constraint.Renamed φ))
      (n.proportionRows catalogue steps side streams ratios)
      (n.proportionRows catalogue steps side streams' ratios) := by
  unfold proportionRows
  cases ratios with
  | none => exact Carries.ok .nil
  | some ratios =>
    dsimp only
    rw [distinct_commodities h]
    refine (Carries.mapM (List.forall₂_same.2 fun p _ =>
      carries_proportionGroup h hone side _ p.1 p.2)).bind fun groups groups' hgroups => ?_
    cases hgroups with
    | nil => exact Carries.ok .nil
    | cons hreference hothers =>
      refine Carries.ok (List.rel_flatMap hothers fun g g' hg => ?_)
      rw [hg.key]
      exact renamed_rowsOver steps _ _ fun t => (hreference.shareAt t).sub (hg.shareAt t)

/-! ## Size -/

theorem renamed_excessAt (h : f.Renamed φ f') (hours : Rat) (size : Var) (commodity : String)
    (t : Nat) : (excessAt hours f size commodity t).Renamed φ
      (excessAt hours f' (φ size) commodity t) := by
  have hflows := Flow.Renamed.sumAt (matched_flowsOf h.outflows commodity) t
  unfold excessAt
  rw [h.storage]
  cases f.storage with
  | none => exact hflows.sub (.ofVar size)
  | some s => exact (hflows.add (s.renamed_chargeRate hours t)).sub (.ofVar size)

theorem carries_sizeRows (h : f.Renamed φ f') (steps : Nat) (hours : Rat) :
    Carries (List.Forall₂ (Constraint.Renamed φ)) (n.sizeRows steps hours f)
      (n.sizeRows steps hours f') := by
  unfold sizeRows
  rw [h.size, h.sizeCommodity]
  cases f.size with
  | none => exact Carries.ok .nil
  | some size =>
    dsimp only [Option.map_some]
    split
    · exact Carries.ok .nil
    · cases f.sizeCommodity with
      | none => exact Carries.of_error _ _
      | some commodity =>
        exact Carries.ok (renamed_rowsOver steps _ _ fun t =>
          renamed_excessAt h hours size commodity t)

/-! ## All conditions -/

/-- The conditions of a node are the same in the same order. -/
theorem carries_rows (h : f.Renamed φ f') (hin : OneCommodityEach f.inflows)
    (hout : OneCommodityEach f.outflows) (steps : Nat) (hours : Rat) :
    List.Forall₂ (Carries (List.Forall₂ (Constraint.Renamed φ)))
      (n.rows catalogue steps hours f) (n.rows catalogue steps hours f') := by
  unfold rows
  dsimp only
  rw [distinct_commodities h.outflows]
  refine List.rel_append ?_ ?_
  · rw [List.forall₂_map_left_iff, List.forall₂_map_right_iff, List.forall₂_same]
    exact fun output _ => carries_balanceRows h steps hours _ output
  · exact .cons (Carries.ok (renamed_storageRows h steps hours)) <|
      .cons (carries_proportionRows (.of_forall₂ h.inflows) hin steps .input _) <|
      .cons (carries_proportionRows h.outflows hout steps .output _) <|
      .cons (carries_sizeRows h steps hours) .nil

/-! ## Costs -/

theorem carries_sizeCosts (h : f.Renamed φ f') (currency : Measure.Unit Rat) :
    Carries (LinearExpr.Renamed φ) (n.sizeCosts catalogue currency f)
      (n.sizeCosts catalogue currency f') := by
  unfold sizeCosts sizeUnit
  rw [h.size, h.sizeCommodity]
  cases f.size with
  | none => exact Carries.ok .zero
  | some size =>
    cases n.costs with
    | none => exact Carries.ok .zero
    | some costs =>
      exact Carries.bind_same fun unit _ => Carries.bind_same fun rate _ => Carries.ok (.term size _)

theorem carries_storageCosts (h : f.Renamed φ f') (currency : Measure.Unit Rat) :
    Carries (LinearExpr.Renamed φ) (n.storageCosts catalogue currency f)
      (n.storageCosts catalogue currency f') := by
  unfold storageCosts sizeUnit
  rw [h.storage, h.sizeCommodity]
  cases f.storage with
  | none => exact Carries.ok .zero
  | some s =>
    cases n.storage with
    | none => exact Carries.ok .zero
    | some storage =>
      exact Carries.bind_same fun unit _ => Carries.bind_same fun rate _ =>
        Carries.ok (.term s.size _)

theorem carries_flowCosts (h : f.Renamed φ f') (currency : Measure.Unit Rat) (hours : Rat) :
    Carries (LinearExpr.Renamed φ) (n.flowCosts catalogue currency hours f)
      (n.flowCosts catalogue currency hours f') := by
  unfold flowCosts
  cases n.inputFlowCosts with
  | none => exact Carries.ok .zero
  | some costs =>
    refine Carries.foldlM h.inflows (fun total total' s s' htotal hs => ?_) .zero
    rw [hs.commodity]
    exact Carries.bind_same fun unit _ => Carries.bind_same fun rate _ =>
      Carries.ok (htotal.add (hs.flow.total.scale _))

theorem carries_totalCosts (h : f.Renamed φ f') (currency : Measure.Unit Rat) (hours : Rat) :
    Carries (LinearExpr.Renamed φ) (n.totalCosts catalogue currency hours f)
      (n.totalCosts catalogue currency hours f') :=
  (carries_sizeCosts h currency).bind fun _ _ hsize =>
    (carries_storageCosts h currency).bind fun _ _ hstorage =>
      (carries_flowCosts h currency hours).bind fun _ _ hflows =>
        Carries.ok (((LinearExpr.Renamed.zero.add hsize).add hstorage).add hflows)

end Node

end SupplyNet
