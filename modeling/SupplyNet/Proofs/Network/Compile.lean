import Mathlib
import SupplyNet.Network.Basic
import SupplyNet.Proofs.Linear.Constraints
import SupplyNet.Proofs.Network.Wiring
import SupplyNet.Proofs.Node.Built

/-!
What it takes to build a network, and what is built: the columns follow from the nodes and the
number of steps, the flows of each node are read from the columns, and the conditions of all nodes
are stored.
-/
set_option autoImplicit false

namespace SupplyNet

variable {K : Type} [Scalar K]

/-- The model of some nodes with all columns, but without conditions. -/
def registry (nodes : List (Node K)) (steps : Nat) : Model K :=
  Model.empty.extend ((variableKeys nodes).map (·.block steps))

/-- A network that is built from nodes of the given commodities, with its conditions in groups. -/
structure Compiled (nodes : List (Node K)) (grid : Grid) (config : Config K)
    (cs : List NodeCommodities) (groups : List (Rows K)) (net : Network K) : Prop where
  wired : Wired nodes
  valid : Graph.validate ⟨nodes, Graph.edgesOf nodes⟩ grid = .ok ()
  settled : List.Forall₂
    (fun n c => n.settle config.catalogue (outlets nodes n.name) = .ok c) nodes cs
  names_nodup : ((variableKeys nodes).map (·.name)).Nodup
  flows : List.Forall₂ (fun p f => p.1.flowsIn config.catalogue (outlets nodes p.1.name) p.2
    (registry nodes grid.size) = .ok f) (nodes.zip cs) net.flows
  rows : (nodes.zip net.flows).flatMap
    (fun p => p.1.rows config.catalogue grid.size grid.hours p.2) = groups.map .ok
  admissible : ∀ c ∈ groups.flatten, c.Admissible
  costs : ∃ currency, Measure.Unit.read config.currency = .ok currency ∧
    objective config.catalogue currency grid.hours (nodes.zip net.flows) = .ok net.model.objective
  model : net.model = { registry nodes grid.size with
    constraints := (Constraint.stored groups.flatten).toArray
    objective := net.model.objective }
  network : net = ⟨⟨nodes, Graph.edgesOf nodes⟩, grid, config, net.flows, net.model, none⟩

theorem Compiled.length_flows {nodes : List (Node K)} {grid : Grid} {config : Config K}
    {cs : List NodeCommodities} {groups : List (Rows K)} {net : Network K}
    (h : Compiled nodes grid config cs groups net) :
    net.flows.length = nodes.length := by
  have hlen := h.flows.length_eq
  rw [List.length_zip, ← h.settled.length_eq, Nat.min_self] at hlen
  exact hlen.symm

theorem registry_constraints (nodes : List (Node K)) (steps : Nat) :
    (registry nodes steps).constraints = #[] := by
  have h : ∀ (bs : List (Block K)) (m : Model K), (m.extend bs).constraints = m.constraints := by
    intro bs
    induction bs with
    | nil => exact fun m => rfl
    | cons b bs ih => exact fun m => ih (m.push b)
  exact h _ _

namespace Network

theorem compile_eq_ok_iff {nodes : List (Node K)} (hw : Wired nodes) {grid : Grid}
    {config : Config K} {cs : List NodeCommodities} (hlen : cs.length = nodes.length)
    {fs : List (NodeFlows K)} {m : Model K} :
    compile ⟨nodes, Graph.edgesOf nodes⟩ grid config cs = .ok (fs, m) ↔
      ((variableKeys nodes).map (·.name)).Nodup ∧
      List.Forall₂ (fun p f => p.1.flowsIn config.catalogue (outlets nodes p.1.name) p.2
        (registry nodes grid.size) = .ok f) (nodes.zip cs) fs ∧
      ∃ groups : List (Rows K), (nodes.zip fs).flatMap
          (fun p => p.1.rows config.catalogue grid.size grid.hours p.2) = groups.map .ok ∧
        (∀ c ∈ groups.flatten, c.Admissible) ∧
        (∃ currency, Measure.Unit.read config.currency = .ok currency ∧
          objective config.catalogue currency grid.hours (nodes.zip fs) = .ok m.objective) ∧
        m = { registry nodes grid.size with
          constraints := (Constraint.stored groups.flatten).toArray
          objective := m.objective } := by
  unfold compile
  dsimp only
  rw [bind_eq_ok_iff]
  constructor
  · rintro ⟨⟨fs', m₁⟩, hflows, h⟩
    obtain ⟨hnames, rfl, hflows⟩ := (Graph.addFlows_eq_ok_iff hw hlen).1 hflows
    obtain ⟨m₂, hrows, h⟩ := bind_eq_ok_iff.1 h
    obtain ⟨currency, hcurrency, h⟩ := bind_eq_ok_iff.1 h
    obtain ⟨costs, hcosts, h⟩ := bind_eq_ok_iff.1 h
    obtain ⟨groups, hgroups, hadm, rfl⟩ := Model.addRows_eq_ok_iff.1 hrows
    obtain ⟨rfl, rfl⟩ := Prod.mk.inj (Except.ok.inj h)
    refine ⟨hnames, hflows, groups, hgroups, hadm,
      ⟨currency, mapError_eq_ok_iff.1 hcurrency, hcosts⟩, ?_⟩
    dsimp only
    rw [show (Model.empty.extend ((variableKeys nodes).map fun k =>
      (k.block grid.size : Block K))) = registry nodes grid.size from rfl, registry_constraints,
      Array.empty_append]
  · rintro ⟨hnames, hflows, groups, hgroups, hadm, ⟨currency, hcurrency, hcosts⟩, hm⟩
    refine ⟨(fs, registry nodes grid.size),
      (Graph.addFlows_eq_ok_iff hw hlen).2 ⟨hnames, rfl, hflows⟩, ?_⟩
    refine bind_eq_ok_iff.2 ⟨_, Model.addRows_eq_ok_iff.2 ⟨groups, hgroups, hadm, rfl⟩, ?_⟩
    refine bind_eq_ok_iff.2 ⟨currency, mapError_eq_ok_iff.2 hcurrency, ?_⟩
    refine bind_eq_ok_iff.2 ⟨m.objective, hcosts, ?_⟩
    dsimp only
    rw [registry_constraints, Array.empty_append, ← hm]
    rfl

/-- What it takes to build a network. -/
theorem build_eq_ok_iff {nodes : List (Node K)} {grid : Grid} {config : Config K}
    {net : Network K} :
    build nodes grid config = .ok net ↔ ∃ cs groups, Compiled nodes grid config cs groups net := by
  unfold build
  rw [bind_eq_ok_iff]
  constructor
  · rintro ⟨g, hg, h⟩
    obtain ⟨hw, rfl⟩ := Graph.ofNodes_eq_ok_iff.1 (mapError_eq_ok_iff.1 hg)
    obtain ⟨⟨⟩, hv, h⟩ := bind_eq_ok_iff.1 h
    obtain ⟨cs, hc, h⟩ := bind_eq_ok_iff.1 h
    obtain ⟨⟨fs, m⟩, hm, h⟩ := bind_eq_ok_iff.1 h
    have hc := (Graph.commodities_eq_ok_iff hw).1 (mapError_eq_ok_iff.1 hc)
    obtain ⟨hnames, hflows, groups, hgroups, hadm, hcosts, hmodel⟩ :=
      (compile_eq_ok_iff hw hc.length_eq.symm).1 (mapError_eq_ok_iff.1 hm)
    refine ⟨cs, groups, ?_⟩
    rw [← Except.ok.inj h]
    exact ⟨hw, mapError_eq_ok_iff.1 hv, hc, hnames, hflows, hgroups, hadm, hcosts, hmodel, rfl⟩
  · rintro ⟨cs, groups, h⟩
    refine ⟨_, mapError_eq_ok_iff.2 (Graph.ofNodes_eq_ok_iff.2 ⟨h.wired, rfl⟩), ?_⟩
    refine bind_eq_ok_iff.2 ⟨(), mapError_eq_ok_iff.2 h.valid, ?_⟩
    refine bind_eq_ok_iff.2
      ⟨cs, mapError_eq_ok_iff.2 ((Graph.commodities_eq_ok_iff h.wired).2 h.settled), ?_⟩
    refine bind_eq_ok_iff.2 ⟨(net.flows, net.model), mapError_eq_ok_iff.2
      ((compile_eq_ok_iff h.wired h.settled.length_eq.symm).2 ⟨h.names_nodup, h.flows, groups,
        h.rows, h.admissible, h.costs, h.model⟩), ?_⟩
    exact congrArg Except.ok h.network.symm

end Network

/-! ## The columns of a built network -/

theorem consistent_registry {nodes : List (Node K)} (steps : Nat)
    (h : ((variableKeys nodes).map (·.name)).Nodup) : (registry nodes steps).Consistent := by
  refine Model.consistent_empty.extend ⟨?_, fun b _ => List.not_mem_nil⟩
  rw [List.map_map]
  exact h

/-! ## A wind farm -/

theorem representable_second_hour :
    (Time.stampAt (.startOfYear 2020) Grid.hour (2 - 1)).Representable := by
  decide

/-- Two hours of a year. -/
def windGrid : Grid :=
  ⟨.startOfYear 2020, Grid.hour, 2, Grid.standard.step_ge, Nat.two_pos, representable_second_hour⟩

def windBattery : Storage Rat :=
  ⟨.plain 1, 1 / 2, 0, 1 / 10, by decide +kernel, by decide +kernel, by decide +kernel,
    by decide +kernel⟩

def windDraft : Draft Rat :=
  { name := "wind", role := .scalableInput (.constant windGrid (1 / 2)), costs := some (.plain 1) }

/-- A wind farm that supplies a town over a battery. -/
def windDrafts : List (Draft Rat) :=
  [windDraft,
    { name := "hub", role := .generic ⟨["wind"], .single "electricity"⟩,
      storage := some windBattery },
    { name := "town",
      role := .fixedOutput ⟨["hub"], .single "electricity"⟩ (.constant windGrid 5) }]

theorem exists_windNetwork :
    ∃ net, Network.build (builtNodes windDrafts) windGrid .standard = .ok net :=
  exists_of_isOk (by decide +kernel)

end SupplyNet
