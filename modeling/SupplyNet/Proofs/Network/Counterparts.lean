import Mathlib
import SupplyNet.Proofs.Network.Columns
import SupplyNet.Proofs.Network.Reorder

/-!
Counterparts of columns. If two models have the same addresses in different orders, each column has
a counterpart with the same address in the other model.
-/
set_option autoImplicit false

namespace SupplyNet

namespace Model

variable {K : Type} {m m' : Model K}

/-- The column with the same address. What is not a column is its own counterpart. -/
def counterpart (m m' : Model K) (v : Var) : Var :=
  match m.addresses[v.index]? with
  | some a => ⟨m'.addresses.idxOf a⟩
  | none => v

theorem getElem?_counterpart (h : m.addresses.Perm m'.addresses) (v : Var) :
    m'.addresses[(m.counterpart m' v).index]? = m.addresses[v.index]? := by
  unfold counterpart
  cases hv : m.addresses[v.index]? with
  | some a =>
    have hmem : a ∈ m'.addresses := h.mem_iff.1 (List.mem_of_getElem? hv)
    dsimp only
    rw [List.getElem?_eq_getElem (List.idxOf_lt_length_iff.2 hmem), List.getElem_idxOf]
  | none =>
    rw [List.getElem?_eq_none_iff] at hv ⊢
    exact h.length_eq ▸ hv

theorem idxOf_of_getElem? {l : List Address} (h : l.Nodup) {i : Nat} {a : Address}
    (hi : l[i]? = some a) : l.idxOf a = i := by
  obtain ⟨hlt, rfl⟩ := List.getElem?_eq_some_iff.1 hi
  exact h.idxOf_getElem i hlt

theorem counterpart_counterpart (h : m.addresses.Perm m'.addresses) (hn : m.addresses.Nodup)
    (v : Var) : m'.counterpart m (m.counterpart m' v) = v := by
  have hget := getElem?_counterpart h v
  cases hv : m.addresses[v.index]? with
  | some a =>
    rw [hv] at hget
    unfold counterpart at hget ⊢
    rw [hget]
    exact LinearExpr.Var.ext_index (idxOf_of_getElem? hn hv)
  | none =>
    have hself : m.counterpart m' v = v := by
      unfold counterpart
      rw [hv]
    rw [hv, hself] at hget
    rw [hself]
    unfold counterpart
    rw [hget]

def counterparts (h : m.addresses.Perm m'.addresses) (hn : m.addresses.Nodup) : Var ≃ Var where
  toFun := m.counterpart m'
  invFun := m'.counterpart m
  left_inv := counterpart_counterpart h hn
  right_inv := counterpart_counterpart h.symm (h.nodup_iff.1 hn)

theorem counterpart_of_places (hm : m.Consistent) (hm' : m'.Consistent) (hn : m'.addresses.Nodup)
    {v w : Var} {a : Address} (hv : (v, a) ∈ m.places) (hw : (w, a) ∈ m'.places) :
    m.counterpart m' v = w := by
  unfold counterpart
  rw [hm.getElem?_addresses hv]
  exact LinearExpr.Var.ext_index (idxOf_of_getElem? hn (hm'.getElem?_addresses hw))

theorem columns_extend (m : Model K) (bs : List (Block K)) :
    (m.extend bs).columns.toList = m.columns.toList ++
      bs.flatMap fun b => b.addresses.map fun a => ⟨a.text, b.lower⟩ := by
  induction bs generalizing m with
  | nil => simp [extend]
  | cons b bs ih =>
    have h := ih (m.push b)
    rw [columns_push, List.append_assoc] at h
    exact h

end Model

variable {K : Type} [Scalar K] {nodes nodes' : List (Node K)}

section Registry

theorem addresses_registry (nodes : List (Node K)) (steps : Nat) :
    (registry nodes steps).addresses =
      (variableKeys nodes).flatMap fun k => (k.block steps : Block K).addresses := by
  unfold registry
  rw [Model.addresses_extend, List.flatMap_map]
  rfl

/-- All columns are bounded by zero. -/
theorem columns_registry (nodes : List (Node K)) (steps : Nat) :
    (registry nodes steps).columns.toList =
      (registry nodes steps).addresses.map fun a => ⟨a.text, some 0⟩ := by
  rw [addresses_registry, List.map_flatMap]
  unfold registry
  rw [Model.columns_extend, List.flatMap_map]
  rfl

theorem nodup_addresses_registry (hn : ((variableKeys nodes).map (·.name)).Nodup) (steps : Nat) :
    (registry nodes steps).addresses.Nodup := by
  rw [addresses_registry, List.nodup_flatMap]
  refine ⟨fun k _ => (k.block steps : Block K).nodup_addresses, ?_⟩
  refine (List.pairwise_map.1 hn).imp fun {k k'} hne a ha ha' => hne ?_
  exact (Block.fst_of_mem_addresses ha).symm.trans (Block.fst_of_mem_addresses ha')

theorem addresses_registry_perm (h : nodes.Perm nodes') (steps : Nat) :
    (registry nodes steps).addresses.Perm (registry nodes' steps).addresses := by
  rw [addresses_registry, addresses_registry]
  exact (variableKeys_perm h).flatMap_right _

/-- The columns of a network and those of the same nodes in another order. -/
def columnMap (h : nodes.Perm nodes') (hn : ((variableKeys nodes).map (·.name)).Nodup)
    (steps : Nat) : Var ≃ Var :=
  Model.counterparts (addresses_registry_perm h steps) (nodup_addresses_registry hn steps)

variable (h : nodes.Perm nodes') (hn : ((variableKeys nodes).map (·.name)).Nodup) {steps : Nat}

include h hn in
theorem nodup_names_of_perm : ((variableKeys nodes').map (·.name)).Nodup :=
  ((variableKeys_perm h).map _).nodup_iff.1 hn

theorem columns_columnMap (v : Var) :
    (registry nodes' steps).columns[(columnMap h hn steps v).index]? =
      (registry nodes steps).columns[v.index]? := by
  have hget := Model.getElem?_counterpart (addresses_registry_perm h steps) v
  rw [← Array.getElem?_toList, ← Array.getElem?_toList, columns_registry, columns_registry,
    List.getElem?_map, List.getElem?_map]
  exact congrArg _ hget

theorem scalarOf_columnMap {k : VariableKey} (hk : k ∈ variableKeys nodes)
    (hs : k.steps? steps = none) :
    columnMap h hn steps ((registry nodes steps).scalarOf k) = (registry nodes' steps).scalarOf k := by
  have hn' := nodup_names_of_perm h hn
  exact Model.counterpart_of_places (consistent_registry steps hn) (consistent_registry steps hn')
    (nodup_addresses_registry hn' steps) (mem_places_scalarOf hn hk hs)
    (mem_places_scalarOf hn' ((variableKeys_perm h).mem_iff.1 hk) hs)

theorem columnOf_columnMap {k : VariableKey} (hk : k ∈ variableKeys nodes)
    (hs : k.steps? steps = some steps) {t : Nat} (ht : t < steps) :
    columnMap h hn steps ((registry nodes steps).columnOf k t) =
      (registry nodes' steps).columnOf k t := by
  have hn' := nodup_names_of_perm h hn
  exact Model.counterpart_of_places (consistent_registry steps hn) (consistent_registry steps hn')
    (nodup_addresses_registry hn' steps) (mem_places_columnOf hn hk hs ht)
    (mem_places_columnOf hn' ((variableKeys_perm h).mem_iff.1 hk) hs ht)

theorem seriesOf_columnMap {k : VariableKey} (hk : k ∈ variableKeys nodes)
    (hs : k.steps? steps = some steps) :
    ((registry nodes steps).seriesOf k).map (columnMap h hn steps) =
      (registry nodes' steps).seriesOf k := by
  have hn' := nodup_names_of_perm h hn
  have hk' : k ∈ variableKeys nodes' := (variableKeys_perm h).mem_iff.1 hk
  have hsize := size_seriesOf hn hk hs
  have hsize' := size_seriesOf hn' hk' hs
  refine Array.ext_getElem? fun t => ?_
  rw [Array.getElem?_map]
  by_cases ht : t < steps
  · rw [getElem?_seriesOf hn hk hs ht, getElem?_seriesOf hn' hk' hs ht, Option.map_some,
      columnOf_columnMap h hn hk hs ht]
  · rw [Array.getElem?_eq_none (by omega), Array.getElem?_eq_none (by omega), Option.map_none]

end Registry

end SupplyNet
