import Mathlib
import SupplyNet.Network.Basic
import SupplyNet.Proofs.Failing
import SupplyNet.Proofs.Network.Validation

/-!
Defects of structure: what there can be wrong with a list of nodes as a graph on a time grid. They
are found while the graph is made and validated, and nothing after that reports one.
-/
set_option autoImplicit false

namespace SupplyNet

variable {K : Type} [Scalar K]

/-- Links lead from each node to each other one, in either direction. -/
def Connected (nodes : List (Node K)) : Prop :=
  ∀ n ∈ nodes, ∀ m ∈ nodes, Relation.EqvGen (Linked nodes) n.name m.name

/-! ## Defects -/

theorem not_wired_iff {nodes : List (Node K)} :
    ¬Wired nodes ↔ ¬(nodes.map (·.name)).Nodup ∨
      (∃ n ∈ nodes, ∃ input ∈ n.inputs, ∀ m ∈ nodes, m.name ≠ input) ∨
      ∃ n ∈ nodes, ∃ m ∈ nodes, m.name ∈ n.inputs ∧ m.kind.isOutput := by
  have hparts : Wired nodes ↔ (nodes.map (·.name)).Nodup ∧
      (∀ n ∈ nodes, ∀ input ∈ n.inputs, ∃ m ∈ nodes, m.name = input) ∧
      ∀ n ∈ nodes, ∀ m ∈ nodes, m.name ∈ n.inputs → ¬m.kind.isOutput :=
    ⟨fun h => ⟨h.names_nodup, h.known, h.not_output⟩, fun h => ⟨h.1, h.2.1, h.2.2⟩⟩
  rw [hparts, not_and_or, not_and_or]
  push Not
  exact Iff.rfl

/-- A profile has as many values as its grid has steps, so that it is the grid that counts. -/
theorem not_onGrid_iff {nodes : List (Node K)} {grid : Grid} :
    ¬OnGrid nodes grid ↔ ∃ n ∈ nodes, ∃ profile, n.role.profile? = some profile ∧
      (profile.values.length ≠ grid.size ∨ profile.grid ≠ grid) := by
  have hgrid (profile : Series K) :
      profile.values.length ≠ grid.size ∨ profile.grid ≠ grid ↔ profile.grid ≠ grid := by
    rw [or_iff_right_iff_imp]
    rintro hlength rfl
    exact hlength profile.length_eq
  unfold OnGrid
  push Not
  simp only [Option.mem_def, hgrid]

namespace Graph

theorem ofNodes_fails_iff {nodes : List (Node K)} :
    (∃ e, ofNodes nodes = .error e) ↔ ¬Wired nodes := by
  simp only [exists_error_iff, ne_eq, ofNodes_eq_ok_iff, not_and]
  exact ⟨fun h hw => h _ hw rfl, fun h _ hw => absurd hw h⟩

theorem validate_fails_iff {nodes : List (Node K)} (hw : Wired nodes) {grid : Grid} :
    (∃ e, validate ⟨nodes, edgesOf nodes⟩ grid = .error e) ↔
      nodes = [] ∨ ¬OnGrid nodes grid ∨ ¬Connected nodes := by
  have hok : validate ⟨nodes, edgesOf nodes⟩ grid = .ok () ↔
      nodes ≠ [] ∧ OnGrid nodes grid ∧ Connected nodes := validate_eq_ok_iff hw
  have hnot := hok.not
  rw [not_and_or, not_and_or, not_ne_iff] at hnot
  exact exists_error_iff.trans (forall_const Unit |>.trans hnot)

/-- A defect is found, whichever it is, unless another one is found before. -/
theorem fails_iff {nodes : List (Node K)} {grid : Grid} :
    ((∃ e, ofNodes nodes = .error e) ∨
        ∃ g e, ofNodes nodes = .ok g ∧ g.validate grid = .error e) ↔
      nodes = [] ∨ ¬Wired nodes ∨ ¬OnGrid nodes grid ∨ ¬Connected nodes := by
  rw [ofNodes_fails_iff]
  by_cases hw : Wired nodes
  · have hgraph : (∃ g e, ofNodes nodes = .ok g ∧ g.validate grid = .error e) ↔
        ∃ e, validate ⟨nodes, edgesOf nodes⟩ grid = .error e := by
      simp only [ofNodes_eq_ok_iff, hw, true_and]
      exact ⟨fun ⟨_, e, hg, he⟩ => ⟨e, hg ▸ he⟩, fun ⟨e, he⟩ => ⟨_, e, rfl, he⟩⟩
    simp only [hgraph, validate_fails_iff hw, hw, not_true_eq_false, false_or]
  · simp [hw]

end Graph

/-! ## Kinds of errors -/

omit [Scalar K] in
theorem CommodityError.kind_ne_invalidNetwork (e : CommodityError K) :
    e.kind ≠ .invalidNetwork := by
  cases e <;> exact fun h => by cases h

omit [Scalar K] in
theorem CompileError.kind_ne_invalidNetwork (e : CompileError K) : e.kind ≠ .invalidNetwork := by
  cases e with
  | model e => cases e <;> exact fun h => by cases h
  | _ => exact fun h => by cases h

namespace Network

/-- An error is reported as one of structure if it comes of the graph, and only then. -/
theorem build_fails_of_graph_iff {nodes : List (Node K)} {grid : Grid} {config : Config K} :
    (∃ e, build nodes grid config = .error e ∧ e.kind = .invalidNetwork) ↔
      (∃ e, Graph.ofNodes nodes = .error e) ∨
        ∃ g e, Graph.ofNodes nodes = .ok g ∧ g.validate grid = .error e := by
  constructor
  · rintro ⟨e, h, hkind⟩
    unfold build at h
    rcases bind_eq_error_iff.1 h with h | ⟨g, hg, h⟩
    · obtain ⟨e, he, -⟩ := mapError_eq_error_iff.1 h
      exact .inl ⟨e, he⟩
    rcases bind_eq_error_iff.1 h with h | ⟨_, -, h⟩
    · obtain ⟨e, he, -⟩ := mapError_eq_error_iff.1 h
      exact .inr ⟨g, e, mapError_eq_ok_iff.1 hg, he⟩
    -- What is left of the construction has no error of this kind.
    rcases bind_eq_error_iff.1 h with h | ⟨cs, -, h⟩
    · obtain ⟨e, -, rfl⟩ := mapError_eq_error_iff.1 h
      exact absurd hkind e.kind_ne_invalidNetwork
    rcases bind_eq_error_iff.1 h with h | ⟨_, -, h⟩
    · obtain ⟨e, -, rfl⟩ := mapError_eq_error_iff.1 h
      exact absurd hkind e.kind_ne_invalidNetwork
    · cases h
  · rintro (⟨e, he⟩ | ⟨g, e, hg, he⟩)
    · exact ⟨.graph e, bind_eq_error_iff.2 (.inl (mapError_eq_error_iff.2 ⟨e, he, rfl⟩)), rfl⟩
    · exact ⟨.graph e, bind_eq_error_iff.2 (.inr ⟨g, mapError_eq_ok_iff.2 hg,
        bind_eq_error_iff.2 (.inl (mapError_eq_error_iff.2 ⟨e, he, rfl⟩))⟩), rfl⟩

/-- A network cannot be built for want of structure exactly if it has no node, if a name is given
twice, if an input is missing or an output node, if a profile is not on the grid, or if the nodes
are not connected. Nothing that comes after the graph fails in that way. -/
theorem build_invalidNetwork_iff (nodes : List (Node K)) (grid : Grid) (config : Config K) :
    ((∃ e, build nodes grid config = .error e ∧ e.kind = .invalidNetwork) ↔
      nodes = [] ∨ ¬(nodes.map (·.name)).Nodup ∨
        (∃ n ∈ nodes, ∃ input ∈ n.inputs, ∀ m ∈ nodes, m.name ≠ input) ∨
        (∃ n ∈ nodes, ∃ m ∈ nodes, m.name ∈ n.inputs ∧ m.kind.isOutput) ∨
        (∃ n ∈ nodes, ∃ profile, n.role.profile? = some profile ∧
          (profile.values.length ≠ grid.size ∨ profile.grid ≠ grid)) ∨
        ¬Connected nodes) ∧
    ∀ g : Graph K,
      (∀ e, g.commodities config.catalogue = .error e →
        (Error.commodity e).kind ≠ .invalidNetwork) ∧
      (∀ cs m e, g.addFlows config.catalogue grid.size cs m = .error e →
        (Error.compile e).kind ≠ .invalidNetwork) ∧
      (∀ fs hours (m : Model K) e, m.addRows ((g.nodes.zip fs).flatMap fun (n, f) =>
          n.rows config.catalogue grid.size hours f) = .error e →
        (Error.compile e).kind ≠ .invalidNetwork) ∧
      (∀ fs hours currency e, objective config.catalogue currency hours (g.nodes.zip fs) =
          .error e → (Error.compile e).kind ≠ .invalidNetwork) ∧
      ∀ cs e, compile g grid config cs = .error e → (Error.compile e).kind ≠ .invalidNetwork := by
  refine ⟨?_, fun g => ⟨?_, ?_, ?_, ?_, ?_⟩⟩
  · rw [build_fails_of_graph_iff, Graph.fails_iff, not_wired_iff, not_onGrid_iff, or_assoc,
      or_assoc]
  · exact fun e _ => e.kind_ne_invalidNetwork
  · exact fun cs m e _ => e.kind_ne_invalidNetwork
  · exact fun fs hours m e _ => e.kind_ne_invalidNetwork
  · exact fun fs hours currency e _ => e.kind_ne_invalidNetwork
  · exact fun cs e _ => e.kind_ne_invalidNetwork

end Network

end SupplyNet
