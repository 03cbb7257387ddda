import Mathlib
import SupplyNet.Proofs.Network.Validation
import SupplyNet.Proofs.Network.Wiring
import SupplyNet.Proofs.Related

/-!
Nodes at the same place of two networks. They may differ in all that they do with their flows, but
not in where these come from, so the networks have the same edges and are valid together.
-/
set_option autoImplicit false

namespace SupplyNet

variable {K : Type} [Scalar K]

/-- Two nodes of one name and kind with the same inputs. -/
structure Node.SamePlace (n n' : Node K) : Prop where
  name : n'.name = n.name
  kind : n'.kind = n.kind
  inputs? : n'.role.inputs? = n.role.inputs?

namespace Node.SamePlace

variable {n n' : Node K} (h : n.SamePlace n')

include h

theorem symm : n'.SamePlace n := ⟨h.name.symm, h.kind.symm, h.inputs?.symm⟩

theorem inlets : n'.inlets = n.inlets := by
  unfold Node.inlets
  rw [h.inputs?]

theorem inputs : n'.inputs = n.inputs := by
  unfold Node.inputs
  rw [h.inlets]

theorem inputCommodities : n'.inputCommodities = n.inputCommodities := by
  unfold Node.inputCommodities
  rw [h.inputs?]

theorem leafKeys : n'.leafKeys = n.leafKeys := by
  funext served
  unfold Node.leafKeys
  rw [h.kind, h.name, h.inlets]

theorem declaredKeys (hsize : n'.hasSize = n.hasSize)
    (hstorage : n'.storage.isSome = n.storage.isSome) : n'.declaredKeys = n.declaredKeys := by
  unfold Node.declaredKeys Node.edgeKeys Node.storageKeys
  rw [hsize, hstorage, h.name, h.inlets]

end Node.SamePlace

variable {nodes nodes' : List (Node K)} (h : List.Forall₂ Node.SamePlace nodes nodes')

include h

theorem exists_of_mem_samePlace {n' : Node K} (hn : n' ∈ nodes') :
    ∃ n ∈ nodes, n.SamePlace n' := by
  have hflip : List.Forall₂ Node.SamePlace nodes' nodes := h.flip.imp fun _ _ hp => hp.symm
  obtain ⟨n, hmem, hp⟩ := exists_of_mem_forall₂ hflip hn
  exact ⟨n, hmem, hp.symm⟩

theorem outlets_eq_of_samePlace (name : String) : outlets nodes' name = outlets nodes name := by
  unfold outlets
  induction h with
  | nil => rfl
  | cons hp _ ih => rw [List.flatMap_cons, List.flatMap_cons, ih, hp.inlets, hp.name]

theorem Wired.of_samePlace (hw : Wired nodes) : Wired nodes' := by
  have hnames : nodes'.map (·.name) = nodes.map (·.name) :=
    (map_eq_map_of_forall₂ h fun _ _ hp => hp.name.symm).symm
  refine ⟨hnames ▸ hw.names_nodup, fun n' hn' input hi => ?_, fun n' hn' m' hm' hi => ?_⟩
  · obtain ⟨n, hn, hp⟩ := exists_of_mem_samePlace h hn'
    obtain ⟨m, hm, hname⟩ := hw.known n hn input (hp.inputs ▸ hi)
    obtain ⟨m', hm', hq⟩ := exists_of_mem_forall₂ h hm
    exact ⟨m', hm', hq.name.trans hname⟩
  · obtain ⟨n, hn, hp⟩ := exists_of_mem_samePlace h hn'
    obtain ⟨m, hm, hq⟩ := exists_of_mem_samePlace h hm'
    rw [hq.kind]
    exact hw.not_output n hn m hm (by rw [← hq.name, ← hp.inputs]; exact hi)

theorem linked_of_samePlace : Linked nodes' = Linked nodes := by
  funext a b
  unfold Linked
  refine propext ⟨?_, ?_⟩
  · rintro ⟨n', hn', hname, hin⟩
    obtain ⟨n, hn, hp⟩ := exists_of_mem_samePlace h hn'
    exact ⟨n, hn, hp.name ▸ hname, hp.inputs ▸ hin⟩
  · rintro ⟨n, hn, hname, hin⟩
    obtain ⟨n', hn', hp⟩ := exists_of_mem_forall₂ h hn
    exact ⟨n', hn', hp.name.trans hname, hp.inputs.symm ▸ hin⟩

/-- Both make a graph if one does and the profiles of the other are on the grid as well. -/
theorem validate_of_samePlace (hw : Wired nodes) {grid : Grid}
    (hgrid : OnGrid nodes grid → OnGrid nodes' grid)
    (hv : Graph.validate ⟨nodes, Graph.edgesOf nodes⟩ grid = .ok ()) :
    Graph.validate ⟨nodes', Graph.edgesOf nodes'⟩ grid = .ok () := by
  obtain ⟨hne, hon, hlinked⟩ := (Graph.validate_eq_ok_iff hw).1 hv
  refine (Graph.validate_eq_ok_iff (hw.of_samePlace h)).2
    ⟨fun hnil => ?_, hgrid hon, fun n' hn' m' hm' => ?_⟩
  · rw [hnil] at h
    exact hne (List.forall₂_nil_right_iff.1 h)
  · obtain ⟨n, hn, hp⟩ := exists_of_mem_samePlace h hn'
    obtain ⟨m, hm, hq⟩ := exists_of_mem_samePlace h hm'
    rw [linked_of_samePlace h, hp.name, hq.name]
    exact hlinked n hn m hm

/-- The variables are the same if each node declares the same ones. -/
theorem variableKeys_of_samePlace
    (hdeclared : nodes'.map Node.declaredKeys = nodes.map Node.declaredKeys) :
    variableKeys nodes' = variableKeys nodes := by
  have hleaf : nodes'.map (fun n => n.leafKeys (outlets nodes' n.name)) =
      nodes.map fun n => n.leafKeys (outlets nodes n.name) := by
    refine (map_eq_map_of_forall₂ h fun n n' hn => ?_).symm
    rw [hn.leafKeys, hn.name, outlets_eq_of_samePlace h]
  unfold variableKeys
  simp only [List.flatMap_def]
  rw [hdeclared, hleaf]

end SupplyNet
