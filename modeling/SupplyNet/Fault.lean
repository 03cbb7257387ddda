/-!
Faults: errors that a check may find. Of several checks the first fault counts.
-/
set_option autoImplicit false

namespace SupplyNet

variable {ε : Type}

/-- A fault under a condition. -/
def faultIf (b : Bool) (fault : ε) : Option ε := if b then some fault else none

/-- Fails with the first fault, if there is one. -/
def refuse (faults : List (Option ε)) : Except ε Unit :=
  match faults.findSome? id with
  | some fault => .error fault
  | none => .ok ()

theorem refuse_eq_ok_iff {faults : List (Option ε)} :
    refuse faults = .ok () ↔ ∀ fault ∈ faults, fault = none := by
  rw [refuse]
  split
  · next e h =>
    obtain ⟨fault, hmem, rfl⟩ := List.exists_of_findSome?_eq_some h
    simp only [reduceCtorEq, false_iff]
    intro hnone
    exact absurd (hnone _ hmem) (by simp)
  · next h => simpa using h

end SupplyNet
