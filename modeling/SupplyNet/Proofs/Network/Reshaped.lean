import Mathlib
import SupplyNet.Proofs.Network.Exact
import SupplyNet.Proofs.Network.Outlined
import SupplyNet.Proofs.Network.Reprofiled
import SupplyNet.Proofs.Network.Validation

/-!
Profiles of another shape. The values of the profiles do not decide whether a network is built: with
others on the same grid and in the same units it is built as well.
-/
set_option autoImplicit false

namespace SupplyNet

namespace Node.Reprofiled

variable {K : Type} [Scalar K] {n n' : Node K} (h : n.Reprofiled n')

include h

theorem eq_of_role : n' = { n with role := n'.role } := by
  obtain ⟨⟨hname, -, -, hcosts, hfactor, hconv, hin, hout, hsize, houtput, hflow⟩, hstorage⟩ := h
  cases n'
  dsimp only at *
  subst hname hcosts hfactor hconv hin hout hsize houtput hflow hstorage
  rfl

theorem settle : n'.settle = n.settle := by
  funext catalogue served
  unfold Node.settle Node.outflow Node.asDeclared Node.inflow Node.commodities Node.conversionFault
  rw [h.alike.leafOutput, h.alike.leafInput, h.alike.inputCommodities, h.alike.outputCommodity,
    h.alike.sizeCommodityAmong (Or.inr (by rw [h.storage])), h.alike.conversions,
    h.alike.outputProportions, h.alike.name, h.storage]

theorem rows (catalogue : Catalogue K) (steps : Nat) (hours : K) (f : NodeFlows K) :
    n'.rows catalogue steps hours f = n.rows catalogue steps hours f := by
  have hkind := h.alike.kind
  rw [h.eq_of_role] at hkind ⊢
  unfold Node.rows Node.sizeRows
  rw [hkind]
  rfl

theorem totalCosts (catalogue : Catalogue K) (currency : Measure.Unit K) (hours : K)
    (f : NodeFlows K) :
    n'.totalCosts catalogue currency hours f = n.totalCosts catalogue currency hours f := by
  rw [h.eq_of_role]
  rfl

end Node.Reprofiled

/-- A change of profiles that keeps the grid and the unit of each. -/
def Series.Reshapes {K : Type} (f : Series K → Series K) : Prop :=
  ∀ s, (f s).grid = s.grid ∧ (f s).unit = s.unit

section Reshaped

variable {K : Type} [Scalar K]

/-! ## Validation -/

theorem onGrid_reprofile {nodes : List (Node K)} {f : Node K → Series K → Series K}
    (hf : ∀ n, Series.Reshapes (f n)) {grid : Grid} (h : OnGrid nodes grid) :
    OnGrid (nodes.map fun n => n.reprofile (f n)) grid := by
  intro n' hn' profile' hprofile'
  obtain ⟨n, hn, rfl⟩ := List.mem_map.1 hn'
  unfold Node.reprofile at hprofile'
  rw [Role.profile?_mapProfile] at hprofile'
  obtain ⟨profile, hprofile, rfl⟩ := Option.map_eq_some_iff.1 hprofile'
  rw [(hf n profile).1]
  exact h n hn profile hprofile

/-! ## Flows -/

theorem succeeds_valuesIn {s s' : Series K} (h : s'.unit = s.unit) (unit : Measure.Unit K) :
    Succeeds (s.valuesIn unit) (s'.valuesIn unit) := by
  unfold Series.valuesIn
  rw [h]
  cases s.unit with
  | none => exact .ok trivial
  | some own => exact Carries.bind_same fun factor _ => .ok trivial

theorem succeeds_flowIn {s s' : Series K} (h : s'.unit = s.unit) (catalogue : Catalogue K)
    (commodities : List String) : Succeeds (Node.flowIn catalogue commodities s)
      (Node.flowIn catalogue commodities s') :=
  Carries.bind_same fun unit _ =>
    ((succeeds_valuesIn h unit).mapError _).bind fun _ _ _ => .ok trivial

namespace Node

variable {n : Node K} {f : Series K → Series K} (hf : Series.Reshapes f) (catalogue : Catalogue K)
variable (commodity : String) (m : Model K)

include hf

theorem succeeds_leafInflow : Succeeds (n.leafInflow catalogue commodity m)
    ((n.reprofile f).leafInflow catalogue commodity m) := by
  unfold leafInflow reprofile
  cases n.role with
  | fixedInput flow => exact succeeds_flowIn (hf flow).2 catalogue [commodity]
  | scalableInput factors =>
    exact ((succeeds_valuesIn (hf factors).2 .one).mapError _).map fun _ _ _ => trivial
  | _ => exact .ok trivial

theorem succeeds_leafOutflow : Succeeds (n.leafOutflow catalogue commodity m)
    ((n.reprofile f).leafOutflow catalogue commodity m) := by
  unfold leafOutflow reprofile
  cases n.role with
  | fixedOutput inputs flow => exact succeeds_flowIn (hf flow).2 catalogue [commodity]
  | _ => exact .ok trivial

/-- A node with other profiles has flows with the same labels. -/
theorem carries_outlined {served : List Outlet} {c : NodeCommodities}
    (hc : n.settle catalogue served = .ok c) (hk : served ≠ [] → ¬n.kind.isOutput) :
    Carries NodeFlows.Outlined (n.flowsIn catalogue served c m)
      ((n.reprofile f).flowsIn catalogue served c m) := by
  have hr := n.reprofiled f
  intro flows hflows
  obtain ⟨inflows, outflows, hin, hout, rfl⟩ := (flowsIn_eq_ok_iff hc hk).1 hflows
  have hins : Carries (List.Forall₂ fun s s' => s'.label = s.label) (n.inStreams catalogue c m)
      ((n.reprofile f).inStreams catalogue c m) := by
    unfold inStreams
    rw [hr.alike.inlets, hr.alike.name]
    split
    · exact (succeeds_leafInflow hf catalogue _ m).map fun _ _ _ => .cons rfl .nil
    · exact .ok (List.forall₂_same.2 fun _ _ => rfl)
  have houts : Carries (List.Forall₂ fun s s' => s'.label = s.label)
      (n.outStreams catalogue served c m) ((n.reprofile f).outStreams catalogue served c m) := by
    unfold outStreams
    rw [hr.alike.name]
    split
    · exact (succeeds_leafOutflow hf catalogue _ m).map fun _ _ _ => .cons rfl .nil
    · exact .ok (List.forall₂_same.2 fun _ _ => rfl)
  obtain ⟨inflows', hin', hinflows⟩ := hins inflows hin
  obtain ⟨outflows', hout', houtflows⟩ := houts outflows hout
  rw [← hr.settle] at hc
  rw [← hr.alike.kind] at hk
  refine ⟨_, (flowsIn_eq_ok_iff hc hk).2 ⟨inflows', outflows', hin', hout', rfl⟩, ?_, rfl, ?_,
    hinflows, houtflows⟩
  · unfold sizeIn
    rw [hr.alike.hasSize, hr.alike.name]
  · unfold storageIn
    rw [hr.storage, hr.alike.name]

end Node

end Reshaped

/-! ## Networks -/

section Network

variable {nodes : List (Node Rat)} {grid : Grid} {config : Config Rat}
variable {f : Node Rat → Series Rat → Series Rat} (hf : ∀ n, Series.Reshapes (f n))
variable (hbuilt : ∀ n ∈ nodes, (n.reprofile (f n)).Built)

include hf

/-- A node with another profile makes a part as well. -/
theorem Node.Makes.reprofile {currency : Measure.Unit Rat} {n : Node Rat} {p : Part Rat}
    (hp : n.Makes nodes grid config currency p) (hw : Wired nodes)
    (hnames : ((variableKeys nodes).map (·.name)).Nodup) (hn : n ∈ nodes)
    (hbuilt : (n.reprofile (f n)).Built) : ∃ p', (n.reprofile (f n)).Makes
      (nodes.map fun n => n.reprofile (f n)) grid config currency p' := by
  have hr := n.reprofiled (f n)
  have hs := forall₂_reprofiled f nodes
  have ha := alike_of_reprofiled hs
  have hmem : n.reprofile (f n) ∈ nodes.map fun n => n.reprofile (f n) := List.mem_map_of_mem hn
  have hsettled : (n.reprofile (f n)).settle config.catalogue
      (outlets (nodes.map fun n => n.reprofile (f n)) (n.reprofile (f n)).name) =
        .ok p.commodities := by
    rw [hr.settle, hr.alike.outlets ha]
    exact hp.settled
  obtain ⟨f', hf', houtlined⟩ := Node.carries_outlined (hf n) config.catalogue
    (registry nodes grid.size) hp.settled (hw.not_isOutput_of_served hn) _ hp.flows
  rw [← hr.alike.outlets ha, ← registry_of_reprofiled hs] at hf'
  have hbound := Node.bound_of_flowsIn hsettled ((hw.of_alike ha).not_isOutput_of_served hmem) hf'
  have hrows := Node.succeeds_rows n config.catalogue houtlined grid.size grid.hours
  rw [hp.rows] at hrows
  obtain ⟨rows', hrows', -⟩ := Carries.exists_map_ok hrows
  rw [← hr.rows] at hrows'
  obtain ⟨costs', hcosts', -⟩ :=
    Node.succeeds_totalCosts houtlined currency grid.hours p.costs hp.costs
  rw [← hr.totalCosts] at hcosts'
  have hexact := Node.exact_of_rows (variableKeys_of_reprofiled hs ▸ hnames) hmem hbound
    (hw.of_alike ha) hbuilt hrows'
  exact ⟨⟨p.commodities, f', rows', costs'⟩,
    ⟨hsettled, hf', hrows', fun d hd => (hexact d hd).admissible, hcosts'⟩⟩

include hbuilt

/-- Networks are built alike, whatever the values of the profiles are. -/
theorem Network.exists_build_reprofile {net : Network Rat}
    (h : build nodes grid config = .ok net) :
    ∃ net', build (nodes.map fun n => n.reprofile (f n)) grid config = .ok net' := by
  have hs := forall₂_reprofiled f nodes
  have ha := alike_of_reprofiled hs
  obtain ⟨hw, hv, hnames, currency, parts, hcurrency, hmakes, -⟩ := build_eq_ok_iff_parts.1 h
  obtain ⟨parts', hmakes', -⟩ := exists_forall₂_of_forall₂ hmakes
    (U := fun _ _ => True) fun n hn p hp => by
      obtain ⟨p', hp'⟩ := hp.reprofile hf hw hnames hn (hbuilt n hn)
      exact ⟨p', hp', trivial⟩
  refine ⟨_, build_eq_ok_iff_parts.2 ⟨hw.of_alike ha,
    validate_of_samePlace (samePlace_of_alike ha) hw (onGrid_reprofile hf) hv,
    variableKeys_of_reprofiled hs ▸ hnames, currency, parts', hcurrency,
    List.forall₂_map_left_iff.2 hmakes', rfl⟩⟩

end Network

end SupplyNet
