import Mathlib
import SupplyNet.Proofs.Network.Compile
import SupplyNet.Proofs.Node.Faultless
import SupplyNet.Proofs.Scalar.Binary

/-!
Finite parameters: which numbers a storage and a node can have if they are computed with in binary.
An infinity or NaN gets past a check that asks only whether a number is negative.
-/
set_option autoImplicit false

namespace SupplyNet

section

variable {K : Type} [Scalar K]

/-! ## What a storage and a node should be made of -/

/-- What is checked of a storage. NaN passes the check of the costs. -/
structure Storage.Checked (s : Storage K) : Prop where
  costs : ¬s.costs.magnitude < 0
  speed : Scalar.isFinite s.speed ∧ 0 < s.speed ∧ s.speed ≤ 1
  storageLoss : Scalar.isFinite s.storageLoss ∧ 0 ≤ s.storageLoss ∧ s.storageLoss < 1
  chargingLoss : Scalar.isFinite s.chargingLoss ∧ 0 ≤ s.chargingLoss ∧ s.chargingLoss < 1

/-- All magnitudes of a storage are finite and in their ranges. -/
structure Storage.Sound (s : Storage K) : Prop extends s.Checked where
  costsSound : Scalar.isFinite s.costs.magnitude ∧ 0 ≤ s.costs.magnitude

/-- What is checked of a node. NaN passes the checks of the costs, and an infinite ratio is a
positive one. -/
structure Node.Checked (n : Node K) : Prop where
  profile : ∀ profile ∈ n.role.profile?, ∀ v ∈ profile.values, Scalar.isFinite v
  costs : ∀ costs ∈ n.costs, ¬costs.magnitude < 0
  inputFlowCosts : ∀ costs ∈ n.inputFlowCosts, ¬costs.magnitude < 0
  storage : ∀ s ∈ n.storage, s.Checked
  inputProportions : ∀ ratios ∈ n.inputProportions, ∀ e ∈ ratios.entries, 0 < e.2.magnitude

/-- All magnitudes of a node are finite and in their ranges. -/
structure Node.Sound (n : Node K) : Prop where
  profile : ∀ profile ∈ n.role.profile?, ∀ v ∈ profile.values, Scalar.isFinite v
  costs : ∀ costs ∈ n.costs, Scalar.isFinite costs.magnitude ∧ 0 ≤ costs.magnitude
  inputFlowCosts : ∀ costs ∈ n.inputFlowCosts,
    Scalar.isFinite costs.magnitude ∧ 0 ≤ costs.magnitude
  storage : ∀ s ∈ n.storage, s.Sound
  convertFactor : Scalar.isFinite n.convertFactor.magnitude
  conversions : ∀ conversions ∈ n.conversions, ∀ e ∈ conversions.entries,
    Scalar.isFinite e.2.factor.magnitude
  inputProportions : ∀ ratios ∈ n.inputProportions, ∀ e ∈ ratios.entries,
    Scalar.isFinite e.2.magnitude ∧ 0 < e.2.magnitude
  outputProportions : ∀ ratios ∈ n.outputProportions, ∀ e ∈ ratios.entries,
    Scalar.isFinite e.2.magnitude

/-- The quantities that a draft gives, with those of its storage. -/
def Draft.quantities (d : Draft K) : List (Quantity K) :=
  d.costs.toList ++ d.inputFlowCosts.toList ++ d.storage.toList.map (·.costs) ++
    d.convertFactor.toList ++
    (d.conversions.toList.flatMap (·.values)).map (·.factor) ++
    (d.inputProportions.toList ++ d.outputProportions.toList).flatMap (·.values)

theorem Draft.forall_quantities_iff {P : Quantity K → Prop} {d : Draft K} :
    (∀ q ∈ d.quantities, P q) ↔
      (∀ q ∈ d.costs, P q) ∧ (∀ q ∈ d.inputFlowCosts, P q) ∧ (∀ s ∈ d.storage, P s.costs) ∧
      (∀ q ∈ d.convertFactor, P q) ∧
      (∀ conversions ∈ d.conversions, ∀ e ∈ conversions.entries, P e.2.factor) ∧
      (∀ ratios ∈ d.inputProportions, ∀ e ∈ ratios.entries, P e.2) ∧
      ∀ ratios ∈ d.outputProportions, ∀ e ∈ ratios.entries, P e.2 := by
  unfold quantities
  simp only [List.forall_mem_append, List.forall_mem_map, List.forall_mem_flatMap,
    Option.mem_toList, Option.mem_def, Keyed.values, and_assoc]

end

/-! ## What the checks leave open -/

/-- Shares are compared with 0 and with 1, and so they are numbers. -/
theorem Storage.checked (s : Storage Float) : s.Checked where
  costs := s.costs_nonneg
  speed :=
    ⟨Binary.isFinite_of_between Binary.isFinite_zero Binary.isFinite_one
      (Binary.le_of_lt s.speed_mem.1) s.speed_mem.2, s.speed_mem⟩
  storageLoss :=
    ⟨Binary.isFinite_of_between Binary.isFinite_zero Binary.isFinite_one
      s.storageLoss_mem.1 (Binary.le_of_lt s.storageLoss_mem.2), s.storageLoss_mem⟩
  chargingLoss :=
    ⟨Binary.isFinite_of_between Binary.isFinite_zero Binary.isFinite_one
      s.chargingLoss_mem.1 (Binary.le_of_lt s.chargingLoss_mem.2), s.chargingLoss_mem⟩

theorem Storage.sound_iff {s : Storage Float} : s.Sound ↔ Scalar.isFinite s.costs.magnitude :=
  ⟨fun h => h.costsSound.1, fun h =>
    { s.checked with costsSound := ⟨h, Binary.nonneg_of_not_neg h s.costs_nonneg⟩ }⟩

namespace Draft.Faultless

variable {d : Draft Float} {commodities : List String} {role : Role Inlets Float}

/-- Capacity factors are between 0 and 1, and of other profiles it is asked whether they are
finite. -/
theorem profile (h : d.Faultless commodities) :
    ∀ profile ∈ d.role.profile?, ∀ v ∈ profile.values, Scalar.isFinite v := by
  intro profile hp v hv
  by_cases hk : d.role.kind = .scalableInput
  · obtain ⟨hge, hle⟩ := (h.factors profile (Role.eq_scalableInput hk hp)).2 v hv
    exact Binary.isFinite_of_between Binary.isFinite_zero Binary.isFinite_one hge hle
  · exact h.flow hk profile hp v hv

theorem checked (h : d.Faultless commodities) (hrole : role.profile? = d.role.profile?) :
    (d.resolved role).Checked where
  profile := hrole ▸ h.profile
  costs := h.costs
  inputFlowCosts costs hc := (h.flowCosts costs hc).1
  storage s _ := s.checked
  inputProportions ratios hr := (h.inputProportions ratios hr).2

/-- What is checked is enough if all quantities are finite. -/
theorem sound_iff (h : d.Faultless commodities) (hrole : role.profile? = d.role.profile?) :
    (d.resolved role).Sound ↔ ∀ q ∈ d.quantities, Scalar.isFinite q.magnitude := by
  rw [Draft.forall_quantities_iff]
  constructor
  · intro hs
    refine ⟨fun q hq => (hs.costs q hq).1, fun q hq => (hs.inputFlowCosts q hq).1,
      fun s hq => (hs.storage s hq).costsSound.1, fun q hq => ?_, hs.conversions,
      fun ratios hr e he => (hs.inputProportions ratios hr e he).1, hs.outputProportions⟩
    have hfactor : (d.resolved role).convertFactor = q := by
      unfold Draft.resolved
      rw [Option.mem_def.1 hq, Option.getD_some]
    exact hfactor ▸ hs.convertFactor
  · rintro ⟨hcosts, hflow, hstorage, hfactor, hconv, hin, hout⟩
    have hchecked := h.checked hrole
    exact {
      profile := hchecked.profile
      costs := fun q hq =>
        ⟨hcosts q hq, Binary.nonneg_of_not_neg (hcosts q hq) (hchecked.costs q hq)⟩
      inputFlowCosts := fun q hq =>
        ⟨hflow q hq, Binary.nonneg_of_not_neg (hflow q hq) (hchecked.inputFlowCosts q hq)⟩
      storage := fun s hs => Storage.sound_iff.2 (hstorage s hs)
      convertFactor := by
        -- without a factor of its own a node has the factor 1
        unfold Draft.resolved
        cases hf : d.convertFactor with
        | none => exact Binary.isFinite_one
        | some q => exact hfactor q hf
      conversions := hconv
      inputProportions := fun ratios hr e he =>
        ⟨hin ratios hr e he, hchecked.inputProportions ratios hr e he⟩
      outputProportions := hout }

end Draft.Faultless

/-- An accepted storage or node is as its checks say: its profile and its shares are numbers. It is
sound in all its magnitudes exactly if all quantities that were given for it are finite. -/
theorem parameters_sound_iff (costs : Quantity Float) (speed storageLoss chargingLoss : Float)
    (d : Draft Float) :
    (∀ s, Storage.ofParameters costs speed storageLoss chargingLoss = .ok s →
      s.Checked ∧ (s.Sound ↔ Scalar.isFinite costs.magnitude)) ∧
    ∀ n, d.build = .ok n →
      n.Checked ∧ (n.Sound ↔ ∀ q ∈ d.quantities, Scalar.isFinite q.magnitude) := by
  constructor
  · intro s hs
    obtain ⟨rfl, -, -, -⟩ := Storage.ofParameters_eq_ok_iff.1 hs
    exact ⟨s.checked, Storage.sound_iff⟩
  · intro n hn
    obtain ⟨-, -, -, role, hrole, rfl, hfaults⟩ := Draft.build_eq_ok_iff.1 hn
    have h := Draft.faults_eq_none_iff.1 hfaults
    have hprofile := Role.profile?_of_mapInputs hrole
    exact ⟨h.checked hprofile, h.sound_iff hprofile⟩

/-! ## A wind farm -/

def farmDraft (costs : Float) : Draft Float :=
  { name := "wind", role := .scalableInput (.constant windGrid 0.5), costs := some (.plain costs) }

theorem sound_farm :
    (∃ s, Storage.ofParameters (.plain 100) 0.5 0 0.1 = .ok s ∧ s.Sound) ∧
      ∃ n, (farmDraft 1).build = .ok n ∧ n.Sound := by
  obtain ⟨s, hs⟩ : ∃ s : Storage Float, Storage.ofParameters (.plain 100) 0.5 0 0.1 = .ok s :=
    exists_of_isOk (by decide +kernel)
  obtain ⟨n, hn⟩ : ∃ n, (farmDraft 1).build = .ok n := exists_of_isOk (by decide +kernel)
  obtain ⟨hstorage, hnode⟩ := parameters_sound_iff (.plain 100) 0.5 0 0.1 (farmDraft 1)
  exact ⟨⟨s, hs, (hstorage s hs).2.2 (by decide +kernel)⟩,
    n, hn, (hnode n hn).2.2 (by decide +kernel)⟩

/-- Costs that are no number at all are accepted, and so are infinite ones. -/
theorem accepts_costs_not_finite :
    (∃ s, Storage.ofParameters (.plain (0 / 0)) 0.5 0 0.1 = .ok s ∧ ¬s.Sound) ∧
      ∀ costs ∈ [0 / 0, 1 / 0], ∃ n, (farmDraft costs).build = .ok n ∧ ¬n.Sound := by
  constructor
  · obtain ⟨s, hs⟩ : ∃ s : Storage Float, Storage.ofParameters (.plain (0 / 0)) 0.5 0 0.1 = .ok s :=
      exists_of_isOk (by decide +kernel)
    refine ⟨s, hs, fun h => ?_⟩
    have hfinite := h.costsSound.1
    rw [(Storage.ofParameters_eq_ok_iff.1 hs).1] at hfinite
    exact absurd hfinite (by decide +kernel)
  · intro costs hc
    have hinvalid : Scalar.isFinite costs = false := by
      revert costs
      decide +kernel
    have hok : (farmDraft costs).build.isOk = true := by
      revert costs
      decide +kernel
    obtain ⟨n, hn⟩ := exists_of_isOk hok
    refine ⟨n, hn, fun h => ?_⟩
    obtain ⟨-, -, -, role, -, rfl, -⟩ := Draft.build_eq_ok_iff.1 hn
    exact Bool.false_ne_true (hinvalid.symm.trans (h.costs (.plain costs) rfl).1)

end SupplyNet
