import Mathlib
import SupplyNet.Node.Draft

/-!
Storages and drafts without faults. What the checks of a draft come to, whatever their order.
-/
set_option autoImplicit false

namespace SupplyNet

variable {K : Type} [Scalar K]

@[simp]
theorem faultIf_eq_none_iff {ε : Type} {b : Bool} {fault : ε} :
    faultIf b fault = none ↔ b = false := by
  cases b <;> simp [faultIf]

theorem proportionFault_eq_none_iff {node : String} {side : Direction}
    {ratios : Keyed (Quantity K)} {commodities neighbours : List String} :
    proportionFault node side ratios commodities neighbours = none ↔
      (ratios.keys = distinct commodities ∨ ratios.keys = distinct neighbours) ∧
        ∀ e ∈ ratios.entries, 0 < e.2.magnitude := by
  unfold proportionFault
  split
  · next h =>
    simp only [reduceCtorEq, false_iff]
    exact fun hkeys => hkeys.1.elim h.1 h.2
  · next h =>
    rw [not_and_or, not_ne_iff, not_ne_iff] at h
    simp [h]

/-- A storage carries the proof that its parameters are accepted. -/
theorem Storage.ofParameters_eq_ok_iff {costs : Quantity K} {speed storageLoss chargingLoss : K}
    {s : Storage K} :
    ofParameters costs speed storageLoss chargingLoss = .ok s ↔
      s.costs = costs ∧ s.speed = speed ∧ s.storageLoss = storageLoss ∧
        s.chargingLoss = chargingLoss := by
  constructor
  · intro h
    unfold ofParameters at h
    split at h
    · split at h
      · split at h
        · split at h
          · cases h
          · rw [← Except.ok.inj h]
            exact ⟨rfl, rfl, rfl, rfl⟩
        · cases h
      · cases h
    · cases h
  · rintro ⟨rfl, rfl, rfl, rfl⟩
    unfold ofParameters
    rw [dif_pos s.storageLoss_mem, dif_pos s.chargingLoss_mem, dif_pos s.speed_mem,
      dif_neg s.costs_nonneg]

/-- What is checked of a draft whose inputs have the given commodities. -/
structure Draft.Faultless (d : Draft K) (commodities : List String) : Prop where
  factors : ∀ factors, d.role = .scalableInput factors →
    (∀ unit ∈ factors.unit, unit.isDimensionless = true) ∧ ∀ v ∈ factors.values, 0 ≤ v ∧ v ≤ 1
  flow : d.role.kind ≠ .scalableInput → ∀ flow ∈ d.role.profile?, ∀ v ∈ flow.values,
    Scalar.isFinite v = true
  costs : ∀ costs ∈ d.costs, ¬costs.magnitude < 0
  fixedOutput : d.role.kind = .fixedOutput →
    (distinct commodities).length ≤ 1 ∧ d.storage = none
  generic : d.role.kind ≠ .generic → d.convertFactor = none ∧ d.conversions = none ∧
    d.inputFlowCosts = none ∧ d.outputCommodity = none
  input : d.role.kind.isInput → d.inputProportions = none
  output : d.role.kind.isOutput → d.outputProportions = none
  conversions : ∀ conversions ∈ d.conversions, d.convertFactor = none ∧ conversions.entries ≠ [] ∧
    ∀ e ∈ conversions.entries, commodities ≠ [] → e.2.source ∈ commodities
  inputProportions : ∀ ratios ∈ d.inputProportions,
    (ratios.keys = distinct commodities ∨ ratios.keys = distinct d.inputs) ∧
      ∀ e ∈ ratios.entries, 0 < e.2.magnitude
  single : d.inputProportions = none → d.conversions = none → (distinct commodities).length ≤ 1
  flowCosts : ∀ costs ∈ d.inputFlowCosts,
    ¬costs.magnitude < 0 ∧ (distinct commodities).length ≤ 1

namespace Draft

variable {d : Draft K} {commodities : List String}

theorem profileFaults_eq_none_iff : (∀ fault ∈ d.profileFaults, fault = none) ↔
    (∀ factors, d.role = .scalableInput factors →
      (∀ unit ∈ factors.unit, unit.isDimensionless = true) ∧
        ∀ v ∈ factors.values, 0 ≤ v ∧ v ≤ 1) ∧
    (d.role.kind ≠ .scalableInput → ∀ flow ∈ d.role.profile?, ∀ v ∈ flow.values,
      Scalar.isFinite v = true) := by
  unfold profileFaults
  cases d.role with
  | scalableInput factors => simp [Role.kind]
  | fixedInput flow => simp [Role.kind, Role.profile?]
  | fixedOutput inputs flow => simp [Role.kind, Role.profile?]
  | scalableOutput inputs flow => simp [Role.kind, Role.profile?]
  | generic inputs => simp [Role.kind, Role.profile?]

theorem negativeFault_eq_none_iff {q : Option (Quantity K)} {fault : Quantity K → NodeError K} :
    negativeFault q fault = none ↔ ∀ q' ∈ q, ¬q'.magnitude < 0 := by
  unfold negativeFault
  cases q with
  | none => simp
  | some q => simp

theorem inputProportionFault_eq_none_iff : d.inputProportionFault commodities = none ↔
    (∀ ratios ∈ d.inputProportions,
      (ratios.keys = distinct commodities ∨ ratios.keys = distinct d.inputs) ∧
        ∀ e ∈ ratios.entries, 0 < e.2.magnitude) ∧
    (d.inputProportions = none → d.conversions = none → (distinct commodities).length ≤ 1) := by
  unfold inputProportionFault
  cases d.inputProportions with
  | none => cases d.conversions <;> simp
  | some ratios => simp [proportionFault_eq_none_iff]

theorem conversionFaults_eq_none_iff :
    (∀ fault ∈ d.conversionFaults commodities, fault = none) ↔
      ∀ conversions ∈ d.conversions, d.convertFactor = none ∧ conversions.entries ≠ [] ∧
        ∀ e ∈ conversions.entries, commodities ≠ [] → e.2.source ∈ commodities := by
  unfold conversionFaults
  cases d.conversions with
  | none => simp
  | some conversions =>
    simp only [List.forall_mem_append, List.forall_mem_cons, List.forall_mem_map]
    simp [and_assoc]

theorem kindFaults_eq_none_iff : (∀ fault ∈ d.kindFaults, fault = none) ↔
    (d.role.kind ≠ .generic → d.convertFactor = none ∧ d.conversions = none ∧
      d.inputFlowCosts = none ∧ d.outputCommodity = none) ∧
    (d.role.kind.isInput → d.inputProportions = none) ∧
    (d.role.kind.isOutput → d.outputProportions = none) := by
  unfold kindFaults
  by_cases hk : d.role.kind = .generic
  · simp [hk]
  · simp [hk, and_assoc]

/-- A draft has no fault exactly if it is faultless. -/
theorem faults_eq_none_iff :
    (∀ fault ∈ d.faults commodities, fault = none) ↔ d.Faultless commodities := by
  unfold faults
  simp only [List.forall_mem_append, profileFaults_eq_none_iff, kindFaults_eq_none_iff,
    conversionFaults_eq_none_iff, List.forall_mem_cons, negativeFault_eq_none_iff,
    inputProportionFault_eq_none_iff]
  constructor
  · rintro ⟨⟨⟨⟨⟨hfactors, hflow⟩, hcosts, hfixed, hstorage, -⟩, hgeneric, hinput, houtput⟩, hconv⟩,
      ⟨hratios, hsingle⟩, hnegative, hflowCosts, -⟩
    refine ⟨hfactors, hflow, hcosts, fun hk => ⟨?_, ?_⟩, hgeneric, hinput, houtput, hconv, hratios,
      hsingle, fun costs hc => ⟨hnegative costs hc, ?_⟩⟩
    · simpa [hk] using hfixed
    · simpa [hk] using hstorage
    · simpa [Option.mem_def.1 hc] using hflowCosts
  · intro h
    refine ⟨⟨⟨⟨⟨h.factors, h.flow⟩, h.costs, ?_, ?_, List.forall_mem_nil _⟩, h.generic, h.input,
      h.output⟩, h.conversions⟩, ⟨h.inputProportions, h.single⟩, fun costs hc =>
        (h.flowCosts costs hc).1, ?_, List.forall_mem_nil _⟩
    · simpa using fun hk => (h.fixedOutput hk).1
    · simpa using fun hk => (h.fixedOutput hk).2
    · cases hc : d.inputFlowCosts with
      | none => simp
      | some costs => simpa using (h.flowCosts costs hc).2

end Draft

end SupplyNet
