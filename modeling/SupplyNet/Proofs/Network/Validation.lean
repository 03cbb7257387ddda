import Mathlib
import SupplyNet.Proofs.Checked
import SupplyNet.Proofs.Network.Components
import SupplyNet.Proofs.Network.Graph

/-!
Validation of graphs: there are nodes, their profiles are on the grid, and all are linked.
-/
set_option autoImplicit false

namespace SupplyNet

variable {K : Type} [Scalar K]

/-- One name is that of an input of a node with the other. -/
def Linked (nodes : List (Node K)) (a b : String) : Prop :=
  ∃ n ∈ nodes, n.name = b ∧ a ∈ n.inputs

/-- Each node has a profile on the grid, if it has one. -/
def OnGrid (nodes : List (Node K)) (grid : Grid) : Prop :=
  ∀ n ∈ nodes, ∀ profile ∈ n.role.profile?, profile.grid = grid

namespace Graph

theorem seriesFault?_eq_none_iff (g : Graph K) (grid : Grid) :
    g.seriesFault? grid = none ↔ OnGrid g.nodes grid := by
  unfold seriesFault? OnGrid
  simp only [List.findSome?_eq_none_iff, Option.bind_eq_none_iff]
  refine forall₄_congr fun n _ profile _ => ?_
  have hlen := profile.length_eq
  constructor
  · intro h
    split at h
    · exact absurd h (by simp)
    · split at h
      · exact absurd h (by simp)
      · next hg => exact not_not.1 hg
  · rintro rfl
    simp [hlen]

/-! ## Links -/

theorem mem_edgesOf_iff {nodes : List (Node K)} (hw : Wired nodes) {i j : Nat} :
    (i, j) ∈ (edgesOf nodes).map (fun e => (e.source, e.target)) ↔
      ∃ n m, nodes[i]? = some n ∧ nodes[j]? = some m ∧ n.name ∈ m.inputs := by
  unfold edgesOf
  rw [List.map_flatMap, List.mem_flatMap]
  constructor
  · rintro ⟨⟨m, t⟩, hm, he⟩
    have hj := List.mk_mem_zipIdx_iff_getElem?.1 hm
    dsimp only at he
    rw [edgesInto_eq hw (List.mem_of_getElem? hj), List.map_map] at he
    obtain ⟨⟨inlet, slot⟩, hp, he⟩ := List.mem_map.1 he
    have hmem : inlet ∈ m.inlets := (List.mem_zipIdx' hp).2 ▸ List.getElem_mem _
    obtain ⟨hi, rfl⟩ := Prod.mk.inj he
    obtain ⟨n, hn, hname⟩ := hw.known m (List.mem_of_getElem? hj) inlet.source
      (List.mem_map_of_mem hmem)
    obtain ⟨k, hk⟩ := List.mem_iff_getElem?.1 hn
    have hik := (source_eq_iff hw hk (List.mem_of_getElem? hj) hmem).2 hname.symm
    dsimp only at hi
    rw [hik] at hi
    subst hi
    exact ⟨n, m, hk, hj, hname ▸ List.mem_map_of_mem hmem⟩
  · rintro ⟨n, m, hn, hm, hname⟩
    obtain ⟨inlet, hmem, hs⟩ := List.mem_map.1 hname
    refine ⟨(m, j), List.mk_mem_zipIdx_iff_getElem?.2 hm, ?_⟩
    dsimp only
    rw [edgesInto_eq hw (List.mem_of_getElem? hm), List.map_map]
    obtain ⟨slot, hslot⟩ := List.mem_iff_getElem?.1 hmem
    refine List.mem_map.2 ⟨(inlet, slot), List.mk_mem_zipIdx_iff_getElem?.2 hslot, ?_⟩
    dsimp only [Function.comp_apply]
    rw [(source_eq_iff hw hn (List.mem_of_getElem? hm) hmem).2 hs]

theorem linked_of_joined {nodes : List (Node K)} (hw : Wired nodes) {i j : Nat}
    (h : Components.Joined (links ⟨nodes, edgesOf nodes⟩) i j) :
    Relation.EqvGen (Linked nodes) (nameAt ⟨nodes, edgesOf nodes⟩ i)
      (nameAt ⟨nodes, edgesOf nodes⟩ j) := by
  induction h with
  | rel i j he =>
    obtain ⟨n, m, hn, hm, hin⟩ := (mem_edgesOf_iff hw).1 he
    rw [nameAt_eq hn, nameAt_eq hm]
    exact .rel _ _ ⟨m, List.mem_of_getElem? hm, rfl, hin⟩
  | refl i => exact .refl _
  | symm i j _ ih => exact .symm _ _ ih
  | trans i j k _ _ ih ih' => exact .trans _ _ _ ih ih'

theorem joined_of_linked {nodes : List (Node K)} (hw : Wired nodes) {a b : String}
    (h : Relation.EqvGen (Linked nodes) a b) :
    Components.Joined (links ⟨nodes, edgesOf nodes⟩) ((indexIn nodes a).getD 0)
      ((indexIn nodes b).getD 0) := by
  induction h with
  | rel a b hl =>
    obtain ⟨m, hm, rfl, ha⟩ := hl
    obtain ⟨n, hn, rfl⟩ := hw.known m hm a ha
    obtain ⟨i, hi⟩ := List.mem_iff_getElem?.1 hn
    obtain ⟨j, hj⟩ := List.mem_iff_getElem?.1 hm
    rw [indexIn_eq hw hi, indexIn_eq hw hj]
    exact .rel _ _ ((mem_edgesOf_iff hw).2 ⟨n, m, hi, hj, ha⟩)
  | refl a => exact .refl _
  | symm a b _ ih => exact .symm _ _ ih
  | trans a b c _ _ ih ih' => exact .trans _ _ _ ih ih'

/-- There is one component at most if links lead from each node to each other one. -/
theorem length_components_le_one_iff {nodes : List (Node K)} (hw : Wired nodes) :
    (components ⟨nodes, edgesOf nodes⟩).length ≤ 1 ↔
      ∀ n ∈ nodes, ∀ m ∈ nodes, Relation.EqvGen (Linked nodes) n.name m.name := by
  have hbound : ∀ e ∈ links ⟨nodes, edgesOf nodes⟩, e.1 < nodes.length ∧ e.2 < nodes.length := by
    rintro ⟨i, j⟩ he
    obtain ⟨n, m, hn, hm, -⟩ := (mem_edgesOf_iff hw).1 he
    exact ⟨(List.getElem?_eq_some_iff.1 hn).1, (List.getElem?_eq_some_iff.1 hm).1⟩
  unfold components
  rw [Components.length_components_le_one_iff hbound]
  constructor
  · intro h n hn m hm
    obtain ⟨i, hi⟩ := List.mem_iff_getElem?.1 hn
    obtain ⟨j, hj⟩ := List.mem_iff_getElem?.1 hm
    have hij := linked_of_joined hw
      (h i (List.getElem?_eq_some_iff.1 hi).1 j (List.getElem?_eq_some_iff.1 hj).1)
    rw [nameAt_eq hi, nameAt_eq hj] at hij
    exact hij
  · intro h i hi j hj
    have hij := joined_of_linked hw (h nodes[i] (List.getElem_mem hi) nodes[j] (List.getElem_mem hj))
    rw [indexIn_eq hw (List.getElem?_eq_getElem hi), indexIn_eq hw (List.getElem?_eq_getElem hj)]
      at hij
    exact hij

theorem validateConnected_eq_ok_iff (g : Graph K) :
    g.validateConnected = .ok () ↔ g.components.length ≤ 1 := by
  unfold validateConnected
  split
  · next h => simpa using h
  · next h => simpa using h

theorem validate_eq_ok_iff {nodes : List (Node K)} (hw : Wired nodes) {grid : Grid} :
    validate ⟨nodes, edgesOf nodes⟩ grid = .ok () ↔ nodes ≠ [] ∧ OnGrid nodes grid ∧
      ∀ n ∈ nodes, ∀ m ∈ nodes, Relation.EqvGen (Linked nodes) n.name m.name := by
  rw [← length_components_le_one_iff hw, ← seriesFault?_eq_none_iff ⟨nodes, edgesOf nodes⟩]
  unfold validate
  by_cases hnil : nodes = []
  · simp [hnil]
  · rw [if_neg (by simpa using hnil)]
    cases hs : seriesFault? ⟨nodes, edgesOf nodes⟩ grid with
    | some fault => simp
    | none => simp [hnil, validateConnected_eq_ok_iff]

end Graph

end SupplyNet
