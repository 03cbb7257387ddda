import Mathlib
import SupplyNet.Proofs.Network.LevelFaults
import SupplyNet.Proofs.Network.Storages

/-!
The check of the levels in exact numbers. A solution passes it exactly if each storage that costs
anything is empty in some time step and full in some time step, up to a leeway that grows with its
size.
-/
set_option autoImplicit false

namespace SupplyNet

theorem Scalar.greater_eq_max (a b : Rat) : Scalar.greater a b = max a b := by
  unfold Scalar.greater
  rw [Scalar.unordered_rat, max_def]
  split_ifs <;> grind

/-- How far the levels of a storage may be from the ends. -/
def StorageValues.leeway (tolerance : Rat) (v : StorageValues) : Rat := tolerance * max v.size 1

/-- Some level is close enough to zero, and some level is close enough to the size. -/
structure StorageValues.Plausible (tolerance : Rat) (steps : Nat) (v : StorageValues) : Prop where
  emptied : ∃ t < steps, v.level t ≤ v.leeway tolerance
  filled : ∃ t < steps, v.size - v.leeway tolerance ≤ v.level t

theorem Model.plausible_storageValues_iff {m : Model Rat} {s : Solution Rat} {node : String}
    {tolerance : Rat} {steps : Nat} :
    (m.storageValues (assignment s.values) node).Plausible tolerance steps ↔
      (m.filling s node).Plausible tolerance steps := by
  have hleeway : (m.storageValues (assignment s.values) node).leeway tolerance =
      (m.filling s node).leeway tolerance :=
    congrArg (tolerance * ·) (Scalar.greater_eq_max _ _).symm
  constructor
  · rintro ⟨hemptied, hfilled⟩
    rw [hleeway] at hemptied hfilled
    exact ⟨hemptied, hfilled⟩
  · rintro ⟨hemptied, hfilled⟩
    rw [← hleeway] at hemptied hfilled
    exact ⟨hemptied, hfilled⟩

/-- A solution passes the check if the levels of all storages are plausible that cost anything. -/
theorem Compiled.checkLevels_eq_ok_iff {nodes : List (Node Rat)} {grid : Grid} {config : Config Rat}
    {cs : List NodeCommodities} {groups : List (Rows Rat)} {net : Network Rat}
    (hc : Compiled nodes grid config cs groups net) (solution : Solution Rat) :
    ({ net with solution := some solution } : Network Rat).checkLevels = .ok () ↔
      ∀ n ∈ nodes, ∀ s, n.storage = some s → 0 < s.costs.magnitude →
        ((registry nodes grid.size).storageValues (assignment solution.values) n.name).Plausible
          config.tolerance grid.size := by
  simp only [← hc.storageValues_eq, Model.plausible_storageValues_iff]
  have hvalues : ∀ x ∈ solution.values, Scalar.isFinite x = true := fun _ _ => rfl
  rcases hc.suits_or_fault (fun _ _ _ _ => Scalar.unordered_rat _) rfl hvalues with
    ⟨hok, hall⟩ | ⟨before, n, after, fault, hnodes, -, hnot, -, herror⟩
  · exact iff_of_true hok hall
  · refine iff_of_false (fun hok => absurd (hok.symm.trans herror) (by simp)) fun hall => ?_
    exact hnot (hall n (hnodes ▸ List.mem_append_right before List.mem_cons_self))

end SupplyNet
