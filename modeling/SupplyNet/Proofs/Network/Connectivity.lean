import Mathlib
import SupplyNet.Proofs.Network.Compile
import SupplyNet.Proofs.Network.Validation

/-!
The check that all nodes of a graph are connected. It lets a graph pass that is of one component at
most, and lists the components of any other one.
-/
set_option autoImplicit false

namespace SupplyNet

variable {K : Type} [Scalar K]

theorem GraphError.message_disconnected (names : List (List String)) :
    (GraphError.disconnected names).message = "Network is not connected, found " ++
      toString names.length ++ " components: " ++
      commaList (names.map fun c => "[" ++ commaList c ++ "]") :=
  rfl

namespace Graph

/-- Each edge leads from a node to a node. -/
def Bounded (g : Graph K) : Prop :=
  ∀ e ∈ g.edges, e.source < g.nodes.length ∧ e.target < g.nodes.length

theorem bounded_of_ofNodes {nodes : List (Node K)} {g : Graph K} (h : ofNodes nodes = .ok g) :
    g.Bounded := by
  obtain ⟨hw, rfl⟩ := ofNodes_eq_ok_iff.1 h
  intro e he
  obtain ⟨n, m, hn, hm, -⟩ := (mem_edgesOf_iff hw).1 (List.mem_map_of_mem he)
  exact ⟨(List.getElem?_eq_some_iff.1 hn).1, (List.getElem?_eq_some_iff.1 hm).1⟩

theorem partition_components {g : Graph K} (h : g.Bounded) :
    Components.Partition g.links (List.range g.nodes.length) g.components := by
  refine Components.partition_components fun p hp => ?_
  obtain ⟨e, he, rfl⟩ := List.mem_map.1 hp
  exact h e he

theorem validateConnected_eq_error_iff {g : Graph K} {e : GraphError} :
    g.validateConnected = .error e ↔
      1 < g.components.length ∧ e = .disconnected (g.components.map (·.map g.nameAt)) := by
  unfold validateConnected
  split
  · next h => simp [h, eq_comm]
  · next h => simp [h]

/-- The search for components is exact: it parts the nodes by what edges of either direction connect,
each component in the order of the nodes and the components in the order of their first nodes. The
check passes if there is one at most, and its message lists all of them otherwise. -/
theorem validateConnected_exact {g : Graph K} (h : g.Bounded) :
    Components.Partition g.links (List.range g.nodes.length) g.components ∧
      (g.validateConnected = .ok () ↔ g.components.length ≤ 1) ∧
      (1 < g.components.length → ∃ e, g.validateConnected = .error e) ∧
      ∀ e, g.validateConnected = .error e →
        e = .disconnected (g.components.map (·.map g.nameAt)) ∧
        e.message = "Network is not connected, found " ++ toString g.components.length ++
          " components: " ++
          commaList (g.components.map fun c => "[" ++ commaList (c.map g.nameAt) ++ "]") := by
  refine ⟨partition_components h, validateConnected_eq_ok_iff g,
    fun hlen => ⟨_, validateConnected_eq_error_iff.2 ⟨hlen, rfl⟩⟩, fun e he => ?_⟩
  obtain ⟨-, rfl⟩ := validateConnected_eq_error_iff.1 he
  refine ⟨rfl, ?_⟩
  rw [GraphError.message_disconnected, List.length_map, List.map_map]
  rfl

end Graph

/-- A wind farm that supplies a town, and a cave for what carbon dioxide there is. -/
def caveDrafts : List (Draft Rat) :=
  [windDraft,
    { name := "town",
      role := .fixedOutput ⟨["wind"], .single "electricity"⟩ (.constant windGrid 5) },
    { name := "chimney", role := .fixedInput (.constant windGrid 5) },
    { name := "cave", role := .generic ⟨["chimney"], .single "co2"⟩,
      storage := some windBattery }]

/-- The town and the cave have nothing to do with each other. -/
theorem validateConnected_caveDrafts :
    ∃ g, Graph.ofNodes (builtNodes caveDrafts) = .ok g ∧
      Components.Partition g.links (List.range 4) [[0, 1], [2, 3]] ∧
      ∃ e, g.validateConnected = .error e ∧ e.message =
        "Network is not connected, found 2 components: [wind, town], [chimney, cave]" := by
  obtain ⟨g, hg⟩ := exists_of_isOk
    (show (Graph.ofNodes (builtNodes caveDrafts)).isOk = true by decide +kernel)
  obtain ⟨hpart, -, hfail, hmessage⟩ := Graph.validateConnected_exact (Graph.bounded_of_ofNodes hg)
  obtain ⟨-, rfl⟩ := Graph.ofNodes_eq_ok_iff.1 hg
  have hnodes : (builtNodes caveDrafts).length = 4 := by decide +kernel
  have hcomponents : Graph.components ⟨builtNodes caveDrafts, Graph.edgesOf (builtNodes caveDrafts)⟩ =
      [[0, 1], [2, 3]] := by
    decide +kernel
  have hnames : [[0, 1], [2, 3]].map (List.map (Graph.nameAt
      ⟨builtNodes caveDrafts, Graph.edgesOf (builtNodes caveDrafts)⟩)) =
      [["wind", "town"], ["chimney", "cave"]] := by
    decide +kernel
  rw [hcomponents] at hpart hfail hmessage
  obtain ⟨e, he⟩ := hfail (by decide)
  refine ⟨_, hg, hnodes ▸ hpart, e, he, ?_⟩
  rw [(hmessage e he).1, hnames]
  decide +kernel

end SupplyNet
