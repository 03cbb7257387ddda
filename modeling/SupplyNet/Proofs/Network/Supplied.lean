import Mathlib
import SupplyNet.Proofs.Network.Reshaped

/-!
Given flows. The fixed inputs and outputs of a network can be given other flows, in the units that
they have, and the network is built as well.
-/
set_option autoImplicit false

namespace SupplyNet

/-! ## Series -/

/-- A series with other values, one for each step of its grid. -/
def Series.supplied (values : Nat → Rat) (s : Series Rat) : Series Rat :=
  { s with values := (List.range s.grid.size).map values, length_eq := by simp }

theorem Series.valueAt_supplied (values : Nat → Rat) (s : Series Rat) (scale : Rat) (t : Nat) :
    (s.supplied values).valueAt scale t =
      if t < s.grid.size then values t * ratioTo s.unit scale else 0 := by
  unfold valueAt supplied
  by_cases ht : t < s.grid.size
  · simp [ht]
  · simp [ht]

/-! ## Drafts -/

/-- A draft with another profile, as long as any numbers will do. -/
def Draft.reprofile (f : Series Rat → Series Rat) (d : Draft Rat) : Draft Rat :=
  { d with role := d.role.mapProfile f }

theorem Draft.inputs_reprofile (f : Series Rat → Series Rat) (d : Draft Rat) :
    (d.reprofile f).inputs = d.inputs := by
  unfold inputs reprofile
  rw [Role.inputs?_mapProfile]

/-- Only the profile itself is checked anew, and any flow is finite, as all rational numbers are. -/
theorem Draft.Faultless.reprofile {d : Draft Rat} {commodities : List String}
    (h : d.Faultless commodities) (hk : d.role.kind ≠ .scalableInput)
    (f : Series Rat → Series Rat) : (d.reprofile f).Faultless commodities := by
  have hkind : (d.reprofile f).role.kind = d.role.kind := d.role.kind_mapProfile f
  exact {
    factors := fun factors hr => absurd (by rw [← hkind, hr]; rfl) hk
    flow := fun _ _ _ _ _ => Scalar.isFinite_rat _
    costs := h.costs
    fixedOutput := fun hk' => h.fixedOutput (hkind ▸ hk')
    generic := fun hk' => h.generic (hkind ▸ hk')
    input := fun hk' => h.input (hkind ▸ hk')
    output := fun hk' => h.output (hkind ▸ hk')
    conversions := h.conversions
    inputProportions := by
      rw [Draft.inputs_reprofile]
      exact h.inputProportions
    single := h.single
    flowCosts := h.flowCosts }

theorem Role.mapInputs_mapProfile {ε Inputs Inputs' : Type} {f : Series Rat → Series Rat}
    {resolve : Inputs → Except ε Inputs'} {r : Role Inputs Rat} {r' : Role Inputs' Rat}
    (h : r.mapInputs resolve = .ok r') :
    (r.mapProfile f).mapInputs resolve = .ok (r'.mapProfile f) := by
  cases r with
  | fixedInput _ | scalableInput _ =>
    rw [← Except.ok.inj h]
    rfl
  | fixedOutput inputs flow | scalableOutput inputs flow | generic inputs =>
    obtain ⟨inputs', hi, rfl⟩ := map_eq_ok_iff.1 h
    exact map_eq_ok_iff.2 ⟨inputs', hi, rfl⟩

/-- Flows can be given at will, but capacity factors cannot. -/
theorem Node.Built.reprofile {n : Node Rat} (h : n.Built) (hk : n.kind ≠ .scalableInput)
    (f : Series Rat → Series Rat) : (n.reprofile f).Built := by
  obtain ⟨d, hd⟩ := h
  obtain ⟨hkind, hname, hinputs, role, hrole, rfl, hfaults⟩ := Draft.build_eq_ok_iff.1 hd
  have hd' : d.role.kind ≠ .scalableInput := (Role.inputs?_of_mapInputs hrole).1 ▸ hk
  refine ⟨d.reprofile f, Draft.build_eq_ok_iff.2 ⟨?_, hname, ?_, role.mapProfile f,
    Role.mapInputs_mapProfile hrole, rfl, ?_⟩⟩
  · rw [show (d.reprofile f).role.kind = d.role.kind from d.role.kind_mapProfile f]
    exact hkind
  · rw [Draft.inputs_reprofile]
    exact hinputs
  · rw [((d.resolved role).reprofiled f).alike.inputCommodities, Draft.faults_eq_none_iff]
    exact (Draft.faults_eq_none_iff.1 hfaults).reprofile hd' f

/-! ## Nodes -/

/-- The flow of a node is given. -/
def Node.IsGiven (n : Node Rat) : Prop := n.kind = .fixedInput ∨ n.kind = .fixedOutput

instance (n : Node Rat) : Decidable n.IsGiven := instDecidableOr

/-- The node with a flow of its own from a family, if its flow is given. -/
def Node.supply (flows : String → Nat → Rat) (n : Node Rat) : Node Rat :=
  n.reprofile fun s => if n.IsGiven then s.supplied (flows n.name) else s

section Supply

variable (p q : String → Nat → Rat) (n : Node Rat)

theorem Node.supplied : n.Reprofiled (n.supply p) :=
  n.reprofiled _

theorem reshapes_supply :
    Series.Reshapes fun s => if n.IsGiven then s.supplied (p n.name) else s := by
  intro s
  dsimp only
  split
  · exact ⟨rfl, rfl⟩
  · exact ⟨rfl, rfl⟩

variable {n} in
theorem Node.supply_of_isGiven (h : n.IsGiven) :
    n.supply p = n.reprofile (Series.supplied (p n.name)) := by
  unfold supply
  simp only [if_pos h]

variable {n} in
theorem Node.supply_of_not_isGiven (h : ¬n.IsGiven) : n.supply p = n := by
  unfold supply reprofile
  simp only [if_neg h]
  rw [show n.role.mapProfile (fun s => s) = n.role by cases n.role <;> rfl]

theorem Node.isGiven_supply : (n.supply p).IsGiven ↔ n.IsGiven := by
  unfold IsGiven
  rw [(n.supplied p).alike.kind]

/-- Only the flows that come last count. -/
theorem Node.supply_supply : (n.supply p).supply q = n.supply q := by
  by_cases h : n.IsGiven
  · rw [supply_of_isGiven q ((n.isGiven_supply p).2 h), (n.supplied p).alike.name,
      supply_of_isGiven p h, supply_of_isGiven q h]
    unfold reprofile
    cases n.role <;> rfl
  · rw [supply_of_not_isGiven p h]

variable {n}

theorem Node.Built.supply (h : n.Built) : (n.supply p).Built := by
  by_cases hgiven : n.IsGiven
  · refine h.reprofile (fun hk => ?_) _
    rcases hgiven with hfixed | hfixed
    · exact absurd (hk.symm.trans hfixed) (by decide)
    · exact absurd (hk.symm.trans hfixed) (by decide)
  · rw [supply_of_not_isGiven p hgiven]
    exact h

/-- If a node can be built with some given flow, it can be built with any other. -/
theorem Node.Built.supply_of_supply (h : (n.supply p).Built) (q : String → Nat → Rat) :
    (n.supply q).Built := by
  rw [← n.supply_supply p q]
  exact h.supply q

end Supply

theorem forall₂_supply (p : String → Nat → Rat) (nodes : List (Node Rat)) :
    List.Forall₂ Node.Reprofiled nodes (nodes.map (·.supply p)) :=
  forall₂_reprofiled _ nodes

/-- With whatever flows that are given, a network is built as well. -/
theorem Network.exists_build_supply {nodes : List (Node Rat)} {grid : Grid} {config : Config Rat}
    {net : Network Rat} {p : String → Nat → Rat} (hbuilt : ∀ n ∈ nodes, (n.supply p).Built)
    (h : build (nodes.map (·.supply p)) grid config = .ok net) (q : String → Nat → Rat) :
    ∃ net', build (nodes.map (·.supply q)) grid config = .ok net' := by
  have hsupplied : ((nodes.map (·.supply p)).map (·.supply q)) = nodes.map (·.supply q) := by
    rw [List.map_map]
    exact List.map_congr_left fun n _ => n.supply_supply p q
  have hall : ∀ n ∈ nodes.map (·.supply p), (n.supply q).Built := by
    intro n' hn'
    obtain ⟨n, hn, rfl⟩ := List.mem_map.1 hn'
    exact (hbuilt n hn).supply q
  rw [← hsupplied]
  exact exists_build_reprofile (reshapes_supply q) hall h

/-! ## Feasible assignments -/

section Compiled

variable {nodes : List (Node Rat)} {grid : Grid} {config : Config Rat} {cs : List NodeCommodities}
variable {groups : List (Rows Rat)} {net : Network Rat} {p : String → Nat → Rat}
variable (h : Compiled (nodes.map (·.supply p)) grid config cs groups net)
variable (hbuilt : ∀ n ∈ nodes, (n.supply p).Built)

include h

/-- The columns do not depend on the flows that are given. -/
theorem Compiled.columns_of_supply : net.model.columns = (registry nodes grid.size).columns := by
  rw [h.columns_eq, registry_of_reprofiled (forall₂_supply p nodes)]

include hbuilt

/-- The flows that are given show in the operations of the nodes only. -/
theorem Compiled.feasible_supply_iff {x : Var → Rat} : net.model.program.Feasible x ↔
    (∀ v : Var, v.index < (registry nodes grid.size).columns.size → 0 ≤ x v) ∧
      ∀ n ∈ nodes, n.Operates nodes config.catalogue grid.hours grid.size
        ((n.supply p).operation config.catalogue (registry nodes grid.size) x) := by
  have hs := forall₂_supply p nodes
  have ha := alike_of_reprofiled hs
  rw [h.feasible_iff_operates (List.forall_mem_map.2 hbuilt), h.columns_of_supply,
    registry_of_reprofiled hs, List.forall_mem_map]
  refine and_congr_right fun _ => forall₂_congr fun n _ => ⟨fun ho => ?_, fun ho => ?_⟩
  · exact (n.supplied p).alike.symm.operates (alike_symm ha) rfl ho
  · exact (n.supplied p).alike.operates ha rfl ho

theorem Compiled.objective_supply {currency : Measure.Unit Rat}
    (hcurrency : Measure.Unit.read config.currency = .ok currency) (x : Var → Rat) :
    net.model.objective.eval x = (nodes.map fun n =>
      n.expenses nodes config.catalogue currency.scale grid.hours grid.size
        ((n.supply p).operation config.catalogue (registry nodes grid.size) x)).sum := by
  have hs := forall₂_supply p nodes
  rw [h.eval_objective hcurrency
      (List.forall_mem_map.2 fun n hn => (hbuilt n hn).not_isInput_of_flowCosts),
    registry_of_reprofiled hs, List.map_map]
  exact congrArg List.sum (List.map_congr_left fun n _ =>
    (n.supplied p).alike.expenses (alike_of_reprofiled hs) rfl _ _ _ _ _)

end Compiled

end SupplyNet
