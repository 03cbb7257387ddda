import Mathlib
import SupplyNet.Proofs.Network.AddedStorage

/-!
Storage equivalence. A source with whatever profile and a storage without losses does what a source
with the mean of the profile does: what exceeds the mean is charged and what it lacks is discharged.
-/
set_option autoImplicit false

namespace SupplyNet

/-! ## Deviations from the mean -/

section Deviations

variable {steps : Nat} {p : Nat → Rat} {mean : Rat}
variable (hp : ∀ t < steps, 0 ≤ p t ∧ p t ≤ 1)
variable (hmean : ∑ t ∈ Finset.range steps, p t = steps * mean)

include hp hmean

theorem mean_mem (hsteps : 0 < steps) : 0 ≤ mean ∧ mean ≤ 1 := by
  have hpos : (0 : Rat) < steps := Nat.cast_pos.2 hsteps
  have hlower : 0 ≤ ∑ t ∈ Finset.range steps, p t :=
    Finset.sum_nonneg fun t ht => (hp t (Finset.mem_range.1 ht)).1
  have hupper : ∑ t ∈ Finset.range steps, p t ≤ steps * 1 := by
    have hcard := Finset.sum_le_card_nsmul (Finset.range steps) p 1 fun t ht =>
      (hp t (Finset.mem_range.1 ht)).2
    rwa [Finset.card_range, nsmul_eq_mul] at hcard
  rw [hmean] at hlower hupper
  exact ⟨nonneg_of_mul_nonneg_right hlower hpos, le_of_mul_le_mul_left hupper hpos⟩

omit hp in
theorem sum_deviations : ∑ t ∈ Finset.range steps, (p t - mean) = 0 := by
  rw [Finset.sum_sub_distrib, hmean, Finset.sum_const, Finset.card_range, nsmul_eq_mul, sub_self]

/-- The deviations of the first steps add up to no more than there are steps. -/
theorem abs_sum_deviations_le {k : Nat} (hk : k ≤ steps) :
    |∑ t ∈ Finset.range k, (p t - mean)| ≤ steps := by
  rcases Nat.eq_zero_or_pos steps with rfl | hsteps
  · simp [Nat.le_zero.1 hk]
  obtain ⟨hlower, hupper⟩ := mean_mem hp hmean hsteps
  have hone : ∀ t ∈ Finset.range k, |p t - mean| ≤ 1 := by
    intro t ht
    obtain ⟨hzero, hone⟩ := hp t ((Finset.mem_range.1 ht).trans_le hk)
    rw [abs_le]
    constructor <;> linarith
  calc |∑ t ∈ Finset.range k, (p t - mean)| ≤ ∑ t ∈ Finset.range k, |p t - mean| :=
        Finset.abs_sum_le_sum_abs _ _
    _ ≤ (Finset.range k).card • (1 : Rat) := Finset.sum_le_card_nsmul _ _ 1 hone
    _ = k := by rw [Finset.card_range, nsmul_eq_mul, mul_one]
    _ ≤ steps := Nat.cast_le.2 hk

end Deviations

/-! ## A storage for the deviations -/

/-- A storage that takes in what a source of some size yields above the mean and gives back what it
lacks. Its level starts so high that it never falls below zero, and its size admits both the highest
level and the greatest deviation. -/
def StorageValues.smoothing (hours size speed mean : Rat) (steps : Nat) (p : Nat → Rat) :
    StorageValues where
  size := 2 * (hours * size * steps) + size / speed
  level t := hours * size * steps + hours * size * ∑ i ∈ Finset.range (t + 1), (p i - mean)
  charge t := hours * size * max (p t - mean) 0
  discharge t := hours * size * max (mean - p t) 0

namespace StorageValues

variable {hours size speed mean : Rat} {steps : Nat} {p : Nat → Rat}

/-- What is charged more than discharged is the deviation. -/
theorem charge_sub_discharge_smoothing (t : Nat) :
    (smoothing hours size speed mean steps p).charge t -
      (smoothing hours size speed mean steps p).discharge t = hours * size * (p t - mean) := by
  unfold smoothing
  dsimp only
  rcases le_total (p t) mean with h | h
  · rw [max_eq_right (sub_nonpos.2 h), max_eq_left (sub_nonneg.2 h)]
    ring
  · rw [max_eq_left (sub_nonneg.2 h), max_eq_right (sub_nonpos.2 h)]
    ring

variable (hhours : 0 ≤ hours) (hsize : 0 ≤ size) (hp : ∀ t < steps, 0 ≤ p t ∧ p t ≤ 1)
variable (hmean : ∑ t ∈ Finset.range steps, p t = steps * mean)

include hhours hsize hp hmean

theorem smoothing_level_mem {t : Nat} (ht : t < steps) :
    0 ≤ (smoothing hours size speed mean steps p).level t ∧
      (smoothing hours size speed mean steps p).level t ≤ 2 * (hours * size * steps) := by
  obtain ⟨hlower, hupper⟩ := abs_le.1 (abs_sum_deviations_le hp hmean (Nat.succ_le_of_lt ht))
  have hscale : 0 ≤ hours * size := mul_nonneg hhours hsize
  have hleast := mul_le_mul_of_nonneg_left hlower hscale
  have hgreatest := mul_le_mul_of_nonneg_left hupper hscale
  unfold smoothing
  constructor <;> dsimp only <;> linarith

theorem smoothing_nonneg (hspeed : 0 < speed) :
    (smoothing hours size speed mean steps p).Nonneg steps := by
  have hscale : 0 ≤ hours * size := mul_nonneg hhours hsize
  refine ⟨?_, fun t ht => (smoothing_level_mem hhours hsize hp hmean ht).1, fun t _ => ?_,
    fun t _ => ?_⟩
  · have hsteps : 0 ≤ hours * size * steps := mul_nonneg hscale (Nat.cast_nonneg steps)
    have hquotient : 0 ≤ size / speed := div_nonneg hsize hspeed.le
    unfold smoothing
    dsimp only
    linarith
  · exact mul_nonneg hscale (le_max_right _ _)
  · exact mul_nonneg hscale (le_max_right _ _)

variable (mean steps p) in
omit hp hmean in
/-- The size is large enough for the greatest deviation in one step. -/
theorem smoothing_room (hspeed : 0 < speed) :
    hours * size ≤ speed * hours * (smoothing hours size speed mean steps p).size := by
  have hsplit : speed * hours * (smoothing hours size speed mean steps p).size =
      2 * (speed * hours * (hours * size * steps)) + hours * size := by
    unfold smoothing
    dsimp only
    field_simp
  have hrest : 0 ≤ speed * hours * (hours * size * steps) :=
    mul_nonneg (mul_nonneg hspeed.le hhours)
      (mul_nonneg (mul_nonneg hhours hsize) (Nat.cast_nonneg steps))
  rw [hsplit]
  linarith

/-- The storage goes through a cycle, as the deviations add up to nothing. -/
theorem smoothing_cycle {s : Storage Rat} (hstorage : s.storageLoss = 0)
    (hcharging : s.chargingLoss = 0) :
    s.Cycle hours steps (smoothing hours size s.speed mean steps p) := by
  intro t ht
  have hspeed := s.speed_mem.1
  have hscale : 0 ≤ hours * size := mul_nonneg hhours hsize
  obtain ⟨hzero, hone⟩ := hp t ht
  obtain ⟨hlower, hupper⟩ := mean_mem hp hmean (Nat.zero_lt_of_lt ht)
  have hroom := smoothing_room mean steps p hhours hsize hspeed
  constructor
  · refine le_trans ?_ hroom
    exact mul_le_of_le_one_right hscale (max_le (by linarith) zero_le_one)
  · refine le_trans ?_ hroom
    exact mul_le_of_le_one_right hscale (max_le (by linarith) zero_le_one)
  · refine (smoothing_level_mem hhours hsize hp hmean ht).2.trans ?_
    have hquotient : 0 ≤ size / s.speed := div_nonneg hsize hspeed.le
    exact le_add_of_nonneg_right hquotient
  · rw [hstorage, hcharging, sub_zero, one_mul, one_mul, add_sub_assoc,
      charge_sub_discharge_smoothing]
    unfold smoothing
    dsimp only
    cases t with
    | zero =>
      -- The step before the first is the last, where all deviations have been added up.
      rw [previous_zero ht, Nat.sub_add_cancel ht, sum_deviations hmean, Finset.sum_range_one]
      ring
    | succ t =>
      rw [previous_succ (Nat.lt_of_succ_lt ht), Finset.sum_range_succ _ (t + 1)]
      ring

end StorageValues

/-! ## Profiles -/

/-- Without a unit the values of a profile are its numbers. -/
theorem Series.sum_valueAt {profile : Series Rat} (hunit : profile.unit = none) (scale : Rat) :
    ∑ t ∈ Finset.range profile.grid.size, profile.valueAt scale t = profile.values.sum := by
  have hmap : profile.values =
      (List.range profile.grid.size).map fun t => profile.valueAt scale t := by
    apply List.ext_getElem (by simp [profile.length_eq])
    intro t h₁ h₂
    simp [valueAt, hunit, ratioTo, h₁]
  rw [hmap]
  rfl

theorem Series.valueAt_mem {profile : Series Rat} (hunit : profile.unit = none)
    (hvalues : ∀ v ∈ profile.values, 0 ≤ v ∧ v ≤ 1) (scale : Rat) {t : Nat}
    (ht : t < profile.grid.size) :
    0 ≤ profile.valueAt scale t ∧ profile.valueAt scale t ≤ 1 := by
  rw [← profile.length_eq] at ht
  have hvalue : profile.valueAt scale t = profile.values[t] := by
    simp [valueAt, hunit, ratioTo, ht]
  rw [hvalue]
  exact hvalues _ (List.getElem_mem ht)

/-! ## Both networks -/

/-- A source with another profile and a storage. -/
theorem Node.stockedAs_of_scalableInput {n : Node Rat} {factors : Series Rat}
    (hrole : n.role = .scalableInput factors) (hn : n.storage = none) (profile : Series Rat)
    (s : Storage Rat) :
    n.StockedAs { n with role := .scalableInput profile, storage := some s } s := by
  refine ⟨⟨rfl, ?_, ?_, rfl, rfl, rfl, rfl, rfl, rfl, rfl, rfl⟩, hn, rfl⟩
  · unfold Node.kind
    rw [hrole]
    rfl
  · rw [hrole]
    rfl

section Compiled

variable {before after : List (Node Rat)} {n n' : Node Rat} {s : Storage Rat} {grid : Grid}
variable {config : Config Rat} {cs cs' : List NodeCommodities} {groups groups' : List (Rows Rat)}
variable {net net' : Network Rat} {x y : Var → Rat} {factors profile : Series Rat} {mean : Rat}
variable (h : n.StockedAs n' s)
variable (hrole : n.role = .scalableInput factors) (hrole' : n'.role = .scalableInput profile)
variable (hc : Compiled (before ++ n :: after) grid config cs groups net)
variable (hc' : Compiled (before ++ n' :: after) grid config cs' groups' net')
variable (hbuilt : ∀ m ∈ before ++ n :: after, m.Built)
variable (hkeeps : (registry (before ++ n :: after) grid.size).Keeps
  (registry (before ++ n' :: after) grid.size) x y)

/-- A source yields its profile at the size that it has. -/
theorem Node.inflowOf_scalableInput (hrole : n.role = .scalableInput factors)
    (catalogue : Catalogue Rat) (m : Model Rat) (x : Var → Rat) (t : Nat) (commodity : String) :
    n.inflowOf catalogue m x t ⟨none, commodity⟩ =
      factors.valueAt 1 t * x (m.scalarOf (.size n.name)) := by
  unfold Node.inflowOf Node.leafInflowAt
  dsimp only
  rw [hrole]

/-- Nothing but the flow of a source becomes its output, and it is not converted. -/
theorem Node.Built.balance_of_scalableInput (hb : n.Built) (hrole : n.role = .scalableInput factors)
    (nodes : List (Node Rat)) (catalogue : Catalogue Rat) (output : String) (value : Label → Rat) :
    n.factorTo nodes catalogue output *
        Label.total (n.inLabels nodes) (fun l => n.madeFrom output l.commodity) value =
      value ⟨none, n.leafInputName nodes⟩ := by
  have hkind : n.kind = .scalableInput := by unfold Node.kind; rw [hrole]; rfl
  have hsource : n.kind ≠ .generic := by rw [hkind]; decide
  have hconv := hb.conversions_of_ne_generic hsource
  have hlabels : n.inLabels nodes = [⟨none, n.leafInputName nodes⟩] := by
    unfold Node.inLabels
    rw [Node.inlets_of_isInput (by rw [hkind]; decide)]
  rw [Node.factorTo_of_plain_one hconv (hb.convertFactor_of_ne_generic hsource), one_mul, hlabels]
  unfold Label.total Node.madeFrom
  rw [hconv]
  simp

include h hrole hc hc' hkeeps

/-- In the new network a source yields its profile at the size that it has in the old one. -/
theorem Node.StockedAs.inflowOf_scalableInput (hrole' : n'.role = .scalableInput profile)
    {t : Nat} :
    n'.inflowOf config.catalogue (registry (before ++ n' :: after) grid.size) y t
        ⟨none, n.leafInputName (before ++ n :: after)⟩ =
      profile.valueAt 1 t *
        x ((registry (before ++ n :: after) grid.size).scalarOf (.size n.name)) := by
  have hsize : n.hasSize = true := by simp [Node.hasSize, Node.kind, hrole, Role.kind]
  have hkept := (h.traces hc hc' hkeeps).scalar _ (mem_variableKeys_size (by simp) hsize) rfl
  rw [Node.inflowOf_scalableInput hrole', h.alike.name, ← hkept]

omit hrole in
/-- Nothing else flows out of a source. -/
theorem Node.StockedAs.outflow_scalableInput (hkind : n.kind = .scalableInput) {t : Nat}
    (ht : t < grid.size) : ∀ l ∈ n.outLabels (before ++ n :: after),
      (n'.operation config.catalogue
          (registry (before ++ n' :: after) grid.size) y).outflow t l =
        (n.operation config.catalogue
          (registry (before ++ n :: after) grid.size) x).outflow t l :=
  fun _ hl => (h.traces hc hc' hkeeps).outflowOf (by simp) h.alike
    (fun hk => absurd (hkind.symm.trans hk) (by decide)) ht hl

include hrole' hbuilt

/-- What is charged more than discharged is what the source yields above the mean. -/
theorem Node.StockedAs.balanced_of_smoothing (hall : ∀ c ∈ net.model.constraints, c.Holds x)
    {t : Nat} (ht : t < grid.size) (hmean : factors.valueAt 1 t = mean)
    (hcharge : ((registry (before ++ n' :: after) grid.size).storageValues y n.name).charge t -
        ((registry (before ++ n' :: after) grid.size).storageValues y n.name).discharge t =
      grid.hours * x ((registry (before ++ n :: after) grid.size).scalarOf (.size n.name)) *
        (profile.valueAt 1 t - mean)) :
    ∀ output ∈ n.outputNames (before ++ n :: after),
      Label.total (n.outLabels (before ++ n :: after)) (fun l => l.commodity = output)
          ((n'.operation config.catalogue
            (registry (before ++ n' :: after) grid.size) y).outflow t) +
          n'.netCharge grid.hours (n'.operation config.catalogue
            (registry (before ++ n' :: after) grid.size) y) t =
        n.factorTo (before ++ n :: after) config.catalogue output *
          Label.total (n.inLabels (before ++ n :: after)) (fun l => n.madeFrom output l.commodity)
            ((n'.operation config.catalogue
              (registry (before ++ n' :: after) grid.size) y).inflow t) := by
  intro output houtput
  have hn : n ∈ before ++ n :: after := by simp
  have hkind : n.kind = .scalableInput := by unfold Node.kind; rw [hrole]; rfl
  have hbalanced := (hc.operates hbuilt hall hn).balanced output houtput t ht
  have hplain := (hbuilt n hn).balance_of_scalableInput hrole
  have hsource : (n.operation config.catalogue
      (registry (before ++ n :: after) grid.size) x).inflow t
        ⟨none, n.leafInputName (before ++ n :: after)⟩ = mean *
          x ((registry (before ++ n :: after) grid.size).scalarOf (.size n.name)) := by
    rw [← hmean]
    exact Node.inflowOf_scalableInput hrole _ _ x t _
  have hyield : (n'.operation config.catalogue
      (registry (before ++ n' :: after) grid.size) y).inflow t
        ⟨none, n.leafInputName (before ++ n :: after)⟩ = profile.valueAt 1 t *
          x ((registry (before ++ n :: after) grid.size).scalarOf (.size n.name)) :=
    h.inflowOf_scalableInput hrole hc hc' hkeeps hrole'
  have hcharged : n'.netCharge grid.hours (n'.operation config.catalogue
      (registry (before ++ n' :: after) grid.size) y) t =
        x ((registry (before ++ n :: after) grid.size).scalarOf (.size n.name)) *
          (profile.valueAt 1 t - mean) := by
    unfold Node.netCharge
    rw [h.stocked, h.alike.storage_operation, hcharge, Option.isSome_some, if_pos rfl, mul_assoc,
      mul_div_cancel_left₀ _ grid.hours_pos.ne']
  have hout := Label.total_congr (p := fun l => l.commodity = output)
    (h.outflow_scalableInput hc hc' hkeeps hkind ht)
  rw [hplain, hsource, Node.netCharge, h.unstocked, Option.isSome_none, if_neg (by simp),
    add_zero] at hbalanced
  rw [hplain, hcharged, hyield, hout.trans hbalanced]
  ring

theorem Node.StockedAs.operates_of_smoothing (hall : ∀ c ∈ net.model.constraints, c.Holds x)
    (hmean : ∀ t < grid.size, factors.valueAt 1 t = mean)
    (hcycle : s.Cycle grid.hours grid.size
      ((registry (before ++ n' :: after) grid.size).storageValues y n.name))
    (hcharge : ∀ t < grid.size,
      ((registry (before ++ n' :: after) grid.size).storageValues y n.name).charge t -
          ((registry (before ++ n' :: after) grid.size).storageValues y n.name).discharge t =
        grid.hours * x ((registry (before ++ n :: after) grid.size).scalarOf (.size n.name)) *
          (profile.valueAt 1 t - mean)) :
    n'.Operates (before ++ n' :: after) config.catalogue grid.hours grid.size
      (n'.operation config.catalogue (registry (before ++ n' :: after) grid.size) y) := by
  have hn : n ∈ before ++ n :: after := by simp
  have hkind : n.kind = .scalableInput := by unfold Node.kind; rw [hrole]; rfl
  have ho := hc.operates hbuilt hall hn
  refine h.alike.operates_of h.forall₂_alike (fun output houtput t ht => ?_) (fun s' hs' => ?_)
    (fun r hr => ?_) (fun r hr t ht => ?_) fun _ hk => absurd hkind hk
  · exact h.balanced_of_smoothing hrole hrole' hc hc' hbuilt hkeeps hall ht (hmean t ht)
      (hcharge t ht) output houtput
  · rw [h.stocked] at hs'
    rw [← Option.some.inj hs', h.alike.storage_operation]
    exact hcycle
  · rw [(hbuilt n hn).inputProportions_of_isInput (by rw [hkind]; decide)] at hr
    exact absurd hr (by simp)
  · exact (ho.outputs r hr t ht).congr fun l hl =>
      (h.outflow_scalableInput hc hc' hkeeps hkind ht l hl).symm

omit hkeeps in
/-- Every feasible assignment is kept by a feasible one that uses the storage. -/
theorem Node.StockedAs.exists_smoothing (hx : net.model.program.Feasible x)
    (hmean : ∀ t < grid.size, factors.valueAt 1 t = mean)
    (hp : ∀ t < grid.size, 0 ≤ profile.valueAt 1 t ∧ profile.valueAt 1 t ≤ 1)
    (hsum : ∑ t ∈ Finset.range grid.size, profile.valueAt 1 t = grid.size * mean)
    (hstorage : s.storageLoss = 0) (hcharging : s.chargingLoss = 0) :
    ∃ y, (registry (before ++ n :: after) grid.size).Keeps
        (registry (before ++ n' :: after) grid.size) x y ∧ net'.model.program.Feasible y := by
  obtain ⟨hbounds, hall⟩ := hc.feasible_iff.1 hx
  rw [hc.columns_eq, nonneg_iff hc.names_nodup] at hbounds
  have hkey : .size n.name ∈ variableKeys (before ++ n :: after) :=
    mem_variableKeys_size (by simp) (by simp [Node.hasSize, Node.kind, hrole, Role.kind])
  have hsize := (hbounds _ hkey).1 rfl
  have hhours : (0 : Rat) ≤ grid.hours := grid.hours_pos.le
  obtain ⟨y, hkeeps, hagree⟩ := h.exists_extension hc.wired hc.names_nodup hc'.names_nodup x
    (.smoothing grid.hours (x ((registry (before ++ n :: after) grid.size).scalarOf (.size n.name)))
      s.speed mean grid.size (profile.valueAt 1))
  have hnonneg := (StorageValues.smoothing_nonneg hhours hsize hp hsum s.speed_mem.1).congr hagree
  have hcycle :=
    (StorageValues.smoothing_cycle hhours hsize hp hsum hstorage hcharging).congr hagree
  refine ⟨y, hkeeps, h.feasible hc hc' hbuilt hkeeps hx hnonneg
    (h.operates_of_smoothing hrole hrole' hc hc' hbuilt hkeeps hall hmean hcycle fun t ht => ?_)⟩
  rw [hagree.charge t ht, hagree.discharge t ht, StorageValues.charge_sub_discharge_smoothing]

omit hkeeps in
/-- What it takes for the node to be smoothed, and what it costs. -/
theorem Node.StockedAs.smooths (hmean : ∀ t < grid.size, factors.valueAt 1 t = mean)
    (hp : ∀ t < grid.size, 0 ≤ profile.valueAt 1 t ∧ profile.valueAt 1 t ≤ 1)
    (hsum : ∑ t ∈ Finset.range grid.size, profile.valueAt 1 t = grid.size * mean)
    (hstorage : s.storageLoss = 0) (hcharging : s.chargingLoss = 0) :
    ∃ currency unit rate, Measure.Unit.read config.currency = .ok currency ∧
      config.catalogue.unitOf (n.sizeName (before ++ n :: after)) = .ok unit ∧
      Costs.ofAmount currency unit s.costs = .ok rate ∧
      ∀ x, net.model.program.Feasible x → ∃ y, net.model.Keeps net'.model x y ∧
        net'.model.program.Feasible y ∧ net'.model.objective.eval y =
          net.model.objective.eval x + rate * y (net'.model.scalarOf (.storageSize n.name)) := by
  have hkind : n.kind = .scalableInput := by unfold Node.kind; rw [hrole]; rfl
  have hcommodity : n'.sizeName (before ++ n' :: after) = n.sizeName (before ++ n :: after) :=
    h.alike.sizeName h.forall₂_alike (Or.inl (by simp [Node.hasSize, hkind]))
  have hfree : n.inputFlowCosts = none := by
    refine Option.eq_none_iff_forall_ne_some.2 fun costs hcosts => ?_
    have hgeneric := ((hbuilt n (by simp)).flowCosts_nonneg hcosts).1
    exact absurd (hkind.symm.trans hgeneric) (by decide)
  obtain ⟨currency, hcurrency⟩ := hc.exists_currency
  obtain ⟨unit, rate, hu, hrate⟩ := hc'.exists_storageRate hcurrency (by simp) h.stocked
  refine ⟨currency, unit, rate, hcurrency, hcommodity ▸ hu, hrate, fun x hx => ?_⟩
  obtain ⟨y, hkeeps, hy⟩ :=
    h.exists_smoothing hrole hrole' hc hc' hbuilt hx hmean hp hsum hstorage hcharging
  refine ⟨y, (hc.keeps_iff hc').2 hkeeps, hy, ?_⟩
  rw [h.objective hc hc' hbuilt hkeeps hcurrency (by unfold Node.flowExpenses; rw [hfree]),
    Costs.ofAmount_eq hrate, Catalogue.scale_of_unitOf hu, hc'.model]
  rfl

end Compiled

/-- Storage equivalence. If a source of a constant capacity factor is given a profile of that mean
and a storage without losses, every feasible assignment extends to a feasible one of the new network
that keeps the values of all columns, and the costs increase by those of the size of the storage. -/
theorem Network.storage_smooths {before after : List (Node Rat)} {n : Node Rat} {grid : Grid}
    {config : Config Rat} {net net' : Network Rat} {factors profile : Series Rat} {mean : Rat}
    {s : Storage Rat} (hbuilt : ∀ m ∈ before ++ n :: after, m.Built) (hn : n.storage = none)
    (hrole : n.role = .scalableInput factors)
    (hconstant : ∀ t < grid.size, factors.valueAt 1 t = mean) (hgrid : profile.grid = grid)
    (hunit : profile.unit = none) (hvalues : ∀ v ∈ profile.values, 0 ≤ v ∧ v ≤ 1)
    (hmean : profile.values.sum / grid.size = mean) (hstorage : s.storageLoss = 0)
    (hcharging : s.chargingLoss = 0)
    (h : Network.build (before ++ n :: after) grid config = .ok net)
    (h' : Network.build (before ++ { n with
      role := .scalableInput profile, storage := some s } :: after) grid config = .ok net') :
    ∃ currency unit rate, Measure.Unit.read config.currency = .ok currency ∧
      config.catalogue.unitOf (n.sizeName (before ++ n :: after)) = .ok unit ∧
      Costs.ofAmount currency unit s.costs = .ok rate ∧
      ∀ x, net.model.program.Feasible x → ∃ y, net.model.Keeps net'.model x y ∧
        net'.model.program.Feasible y ∧ net'.model.objective.eval y =
          net.model.objective.eval x + rate * y (net'.model.scalarOf (.storageSize n.name)) := by
  obtain ⟨cs, groups, hc⟩ := Network.build_eq_ok_iff.1 h
  obtain ⟨cs', groups', hc'⟩ := Network.build_eq_ok_iff.1 h'
  have hs := Node.stockedAs_of_scalableInput hrole hn profile s
  have hp := fun t ht => Series.valueAt_mem hunit hvalues 1 (t := t) (hgrid ▸ ht)
  have hsum : ∑ t ∈ Finset.range grid.size, profile.valueAt 1 t = grid.size * mean := by
    rw [← hgrid, Series.sum_valueAt hunit, hgrid, ← hmean,
      mul_div_cancel₀ _ (Nat.cast_ne_zero.2 grid.size_pos.ne')]
  exact hs.smooths hrole rfl hc hc' hbuilt hconstant hp hsum hstorage hcharging

/-! ## Still and windy hours -/

/-- It charges without losses, as it stores. -/
def losslessBattery : Storage Rat :=
  { windBattery with
    chargingLoss := windBattery.storageLoss, chargingLoss_mem := windBattery.storageLoss_mem }

/-- No wind in the first hour and full wind in the second. -/
def gusts : Series Rat := .ofFn windGrid fun t => t

theorem role_of_windNode : ((builtNodes windDrafts).head windNodes_ne_nil).role =
    .scalableInput (.constant windGrid (1 / 2)) := by
  obtain ⟨n, hn⟩ := exists_of_isOk (x := windDraft.build) (by decide +kernel)
  have hcons : builtNodes windDrafts = n :: builtNodes windDrafts.tail :=
    List.filterMap_cons_some (by rw [hn]; rfl)
  obtain ⟨-, -, -, role, hrole, rfl, -⟩ := Draft.build_eq_ok_iff.1 hn
  simp only [hcons, List.head_cons]
  exact (Except.ok.inj hrole).symm

/-- With a battery, gusts do what a steady wind does. -/
theorem smoothed_windNetwork :
    ∃ wind nodes net net', builtNodes windDrafts = [] ++ wind :: nodes ∧
      wind.role = .scalableInput (.constant windGrid (1 / 2)) ∧
      gusts.values.sum / windGrid.size = 1 / 2 ∧
      Network.build ([] ++ wind :: nodes) windGrid .standard = .ok net ∧
      Network.build ([] ++ { wind with
        role := .scalableInput gusts, storage := some losslessBattery } :: nodes) windGrid
          .standard = .ok net' ∧
      net.model.program.Feasible (assignment windValues) ∧
      ∃ currency unit rate y, Measure.Unit.read (Config.standard : Config Rat).currency =
          .ok currency ∧
        Config.standard.catalogue.unitOf (wind.sizeName ([] ++ wind :: nodes)) = .ok unit ∧
        Costs.ofAmount currency unit losslessBattery.costs = .ok rate ∧
        net.model.Keeps net'.model (assignment windValues) y ∧
        net'.model.program.Feasible y ∧
        net'.model.objective.eval y = net.model.objective.eval (assignment windValues) +
          rate * y (net'.model.scalarOf (.storageSize wind.name)) := by
  have hnodes : builtNodes windDrafts = [] ++ (builtNodes windDrafts).head windNodes_ne_nil ::
      (builtNodes windDrafts).tail := (List.cons_head_tail windNodes_ne_nil).symm
  have hstorage : ((builtNodes windDrafts).head windNodes_ne_nil).storage.isNone = true := by
    decide +kernel
  have hmean : gusts.values.sum / windGrid.size = 1 / 2 := by decide +kernel
  obtain ⟨net', h'⟩ := exists_of_isOk (x := Network.build ([] ++
    { (builtNodes windDrafts).head windNodes_ne_nil with
      role := .scalableInput gusts, storage := some losslessBattery } ::
      (builtNodes windDrafts).tail) windGrid .standard) (by decide +kernel)
  obtain ⟨net, h, hx⟩ := exists_feasible_windNetwork
  have hbuilt : ∀ m ∈ builtNodes windDrafts, m.Built := fun _ hm => built_of_mem hm
  rw [hnodes] at h hbuilt
  obtain ⟨currency, unit, rate, hcurrency, hu, hrate, hsmooths⟩ := Network.storage_smooths hbuilt
    (Option.isNone_iff_eq_none.1 hstorage) role_of_windNode (by decide +kernel) rfl rfl
    (by decide +kernel) hmean rfl rfl h h'
  obtain ⟨y, hy⟩ := hsmooths _ hx
  exact ⟨_, _, net, net', hnodes, role_of_windNode, hmean, h, h', hx, currency, unit, rate, y,
    hcurrency, hu, hrate, hy⟩

end SupplyNet
