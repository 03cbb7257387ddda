import Mathlib
import SupplyNet.Proofs.Network.Alike

/-!
Nodes with other profiles. They have the same variables, and all that is settled without the values
of a profile stays as it is.
-/
set_option autoImplicit false

namespace SupplyNet

section Reprofiled

variable {K : Type}

/-- The role with another profile. -/
def Role.mapProfile {Inputs : Type} (f : Series K → Series K) : Role Inputs K → Role Inputs K
  | fixedInput flow => fixedInput (f flow)
  | scalableInput factors => scalableInput (f factors)
  | fixedOutput inputs flow => fixedOutput inputs (f flow)
  | scalableOutput inputs profile => scalableOutput inputs (f profile)
  | generic inputs => generic inputs

section Role

variable {Inputs : Type} (f : Series K → Series K) (r : Role Inputs K)

@[simp] theorem Role.kind_mapProfile : (r.mapProfile f).kind = r.kind := by
  cases r <;> rfl

@[simp] theorem Role.inputs?_mapProfile : (r.mapProfile f).inputs? = r.inputs? := by
  cases r <;> rfl

@[simp] theorem Role.profile?_mapProfile : (r.mapProfile f).profile? = r.profile?.map f := by
  cases r <;> rfl

end Role

variable [Scalar K]

def Node.reprofile (f : Series K → Series K) (n : Node K) : Node K :=
  { n with role := n.role.mapProfile f }

/-- Two nodes that differ in their profiles at most. -/
structure Node.Reprofiled (n n' : Node K) : Prop where
  alike : n.Alike n'
  storage : n'.storage = n.storage

theorem Node.reprofiled (f : Series K → Series K) (n : Node K) : n.Reprofiled (n.reprofile f) :=
  ⟨⟨rfl, n.role.kind_mapProfile f, n.role.inputs?_mapProfile f, rfl, rfl, rfl, rfl, rfl, rfl, rfl,
    rfl⟩, rfl⟩

theorem forall₂_reprofiled (f : Node K → Series K → Series K) (nodes : List (Node K)) :
    List.Forall₂ Node.Reprofiled nodes (nodes.map fun n => n.reprofile (f n)) :=
  List.forall₂_map_right_iff.2 (List.forall₂_same.2 fun n _ => n.reprofiled (f n))

variable {nodes nodes' : List (Node K)} {n n' : Node K}

theorem Node.Reprofiled.declaredKeys (h : n.Reprofiled n') : n'.declaredKeys = n.declaredKeys :=
  h.alike.samePlace.declaredKeys h.alike.hasSize (congrArg _ h.storage)

theorem alike_of_reprofiled (h : List.Forall₂ Node.Reprofiled nodes nodes') :
    List.Forall₂ Node.Alike nodes nodes' :=
  h.imp fun _ _ hr => hr.alike

/-- Profiles have no variables of their own. -/
theorem variableKeys_of_reprofiled (h : List.Forall₂ Node.Reprofiled nodes nodes') :
    variableKeys nodes' = variableKeys nodes :=
  variableKeys_of_samePlace (samePlace_of_alike (alike_of_reprofiled h))
    (map_eq_map_of_forall₂ h fun _ _ hr => hr.declaredKeys.symm).symm

theorem registry_of_reprofiled (h : List.Forall₂ Node.Reprofiled nodes nodes') (steps : Nat) :
    registry nodes' steps = registry nodes steps := by
  unfold registry
  rw [variableKeys_of_reprofiled h]

end Reprofiled

end SupplyNet
