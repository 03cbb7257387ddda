import SupplyNet.Node.Error

/-!
Storages: buffers for the commodity that a node puts out. The size of a storage is counted in the
unit of the commodity times hours.
-/
set_option autoImplicit false

namespace SupplyNet

/-- Costs for each unit of size, the share of the size that can be charged or discharged in an hour,
the share of the level that is lost in an hour, and the share of each charge that is lost. -/
structure Storage (K : Type) [Scalar K] where
  costs : Quantity K
  speed : K
  storageLoss : K
  chargingLoss : K
  storageLoss_mem : 0 ≤ storageLoss ∧ storageLoss < 1
  chargingLoss_mem : 0 ≤ chargingLoss ∧ chargingLoss < 1
  speed_mem : 0 < speed ∧ speed ≤ 1
  costs_nonneg : ¬costs.magnitude < 0

def Storage.ofParameters {K : Type} [Scalar K] (costs : Quantity K)
    (speed storageLoss chargingLoss : K) : Except (StorageError K) (Storage K) :=
  if h₁ : 0 ≤ storageLoss ∧ storageLoss < 1 then
    if h₂ : 0 ≤ chargingLoss ∧ chargingLoss < 1 then
      if h₃ : 0 < speed ∧ speed ≤ 1 then
        if h₄ : costs.magnitude < 0 then .error (.costs costs)
        else .ok ⟨costs, speed, storageLoss, chargingLoss, h₁, h₂, h₃, h₄⟩
      else .error (.speed speed)
    else .error (.chargingLoss chargingLoss)
  else .error (.storageLoss storageLoss)

end SupplyNet
