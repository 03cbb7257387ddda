import Mathlib
import SupplyNet.Proofs.Network.Labels
import SupplyNet.Proofs.Network.Parts

/-!
Flows in outline. Whether the conditions and the costs of a node can be made depends on the labels
of its flows, and not on what flows.
-/
set_option autoImplicit false

namespace SupplyNet

/-- Both computations succeed if the first one does. -/
abbrev Succeeds {ε α β : Type} (x : Except ε α) (y : Except ε β) : Prop :=
  Carries (fun _ _ => True) x y

/-- Two sets of flows of a node with the same labels. -/
structure NodeFlows.Outlined {K : Type} (f f' : NodeFlows K) : Prop where
  size : f'.size = f.size
  sizeCommodity : f'.sizeCommodity = f.sizeCommodity
  storage : f'.storage = f.storage
  inflows : List.Forall₂ (fun s s' => s'.label = s.label) f.inflows f'.inflows
  outflows : List.Forall₂ (fun s s' => s'.label = s.label) f.outflows f'.outflows

namespace Node

variable {K : Type} [Scalar K] {n : Node K} {catalogue : Catalogue K} {f f' : NodeFlows K}
variable {streams streams' : List (Stream K)}

omit [Scalar K] in
theorem map_commodity_of_outlined
    (h : List.Forall₂ (fun s s' => s'.label = s.label) streams streams') :
    streams'.map (·.commodity) = streams.map (·.commodity) :=
  (map_eq_map_of_forall₂ h fun _ _ hs => congrArg Label.commodity hs.symm).symm

/-! ## Proportions -/

theorem succeeds_proportionGroup (side : Direction) (byCommodity : Bool) (key : String)
    (ratio : Quantity K) (h : List.Forall₂ (fun s s' => s'.label = s.label) streams streams') :
    Succeeds (n.proportionGroup catalogue side streams byCommodity key ratio)
      (n.proportionGroup catalogue side streams' byCommodity key ratio) := by
  have hmembers : List.Forall₂ (fun s s' => s'.label = s.label) (sharing streams byCommodity key)
      (sharing streams' byCommodity key) := by
    refine List.rel_filter (fun s s' hs => ?_) h
    dsimp only
    rw [show s'.commodity = s.commodity from congrArg Label.commodity hs,
      show s'.neighbour = s.neighbour from congrArg Label.neighbour hs]
  unfold proportionGroup
  generalize sharing streams byCommodity key = members at hmembers
  generalize sharing streams' byCommodity key = members' at hmembers
  cases hmembers with
  | nil => exact .of_error _ _
  | @cons first first' _ _ hfirst _ =>
    dsimp only
    rw [show first'.commodity = first.commodity from congrArg Label.commodity hfirst]
    refine Carries.bind_same fun unit _ => Carries.bind_same fun value _ => ?_
    split
    · exact .ok trivial
    · exact .of_error _ _

theorem succeeds_proportionRows (steps : Nat) (side : Direction)
    (ratios : Option (Keyed (Quantity K)))
    (h : List.Forall₂ (fun s s' => s'.label = s.label) streams streams') :
    Succeeds (n.proportionRows catalogue steps side streams ratios)
      (n.proportionRows catalogue steps side streams' ratios) := by
  unfold proportionRows
  cases ratios with
  | none => exact .ok trivial
  | some ratios =>
    dsimp only
    rw [map_commodity_of_outlined h]
    refine Carries.bind (Carries.mapM (List.forall₂_same.2 fun e _ =>
      succeeds_proportionGroup side _ e.1 e.2 h)) fun groups groups' _ => ?_
    cases groups with
    | nil => cases groups' <;> exact .ok trivial
    | cons _ _ => cases groups' <;> exact .ok trivial

/-! ## All conditions -/

variable (h : f.Outlined f')

include h

theorem succeeds_conversion (output : String) :
    Succeeds (n.conversion catalogue f output) (n.conversion catalogue f' output) := by
  unfold conversion
  cases n.conversions with
  | some conversions =>
    dsimp only
    cases conversions.find? output with
    | none => exact .of_error _ _
    | some c => exact Carries.bind_same fun q _ => .ok trivial
  | none =>
    dsimp only
    rw [map_commodity_of_outlined h.inflows]
    split
    · exact Carries.bind_same fun q _ => .ok trivial
    · split
      · exact .of_error _ _
      · exact .ok trivial

theorem succeeds_sizeRows (steps : Nat) (hours : K) :
    Succeeds (n.sizeRows steps hours f) (n.sizeRows steps hours f') := by
  unfold sizeRows
  rw [h.size, h.sizeCommodity]
  cases f.size with
  | none => exact .ok trivial
  | some size =>
    dsimp only
    split
    · exact .ok trivial
    · cases f.sizeCommodity with
      | none => exact .of_error _ _
      | some commodity => exact .ok trivial

variable (n catalogue) in
/-- All conditions of a node can be made of flows with the same labels. -/
theorem succeeds_rows (steps : Nat) (hours : K) : List.Forall₂ Succeeds
    (n.rows catalogue steps hours f) (n.rows catalogue steps hours f') := by
  unfold rows
  rw [map_commodity_of_outlined h.outflows]
  refine List.rel_append (List.forall₂_map_left_iff.2 (List.forall₂_map_right_iff.2
    (List.forall₂_same.2 fun output _ => ?_))) (.cons (.ok trivial) (.cons ?_ (.cons ?_ (.cons ?_
      .nil))))
  · exact (succeeds_conversion h output).bind fun _ _ _ => .ok trivial
  · exact succeeds_proportionRows steps .input n.inputProportions h.inflows
  · exact succeeds_proportionRows steps .output n.outputProportions h.outflows
  · exact succeeds_sizeRows h steps hours

/-! ## Costs -/

theorem succeeds_flowCosts (currency : Measure.Unit K) (hours : K) :
    Succeeds (n.flowCosts catalogue currency hours f)
      (n.flowCosts catalogue currency hours f') := by
  unfold flowCosts
  cases n.inputFlowCosts with
  | none => exact .ok trivial
  | some costs =>
    refine Carries.foldlM h.inflows (fun _ _ s s' _ hs => ?_) trivial
    rw [show s'.commodity = s.commodity from congrArg Label.commodity hs]
    exact Carries.bind_same fun unit _ => Carries.bind_same fun perAmount _ => .ok trivial

theorem succeeds_totalCosts (currency : Measure.Unit K) (hours : K) :
    Succeeds (n.totalCosts catalogue currency hours f)
      (n.totalCosts catalogue currency hours f') := by
  have hsize : n.sizeCosts catalogue currency f' = n.sizeCosts catalogue currency f := by
    unfold sizeCosts sizeUnit
    rw [h.size, h.sizeCommodity]
  have hstorage : n.storageCosts catalogue currency f' = n.storageCosts catalogue currency f := by
    unfold storageCosts sizeUnit
    rw [h.storage, h.sizeCommodity]
  unfold totalCosts
  rw [hsize, hstorage]
  refine Carries.bind_same fun size _ => Carries.bind_same fun storage _ => ?_
  exact (succeeds_flowCosts h currency hours).bind fun _ _ _ => .ok trivial

end Node

end SupplyNet
