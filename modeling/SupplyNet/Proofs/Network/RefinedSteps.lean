import Mathlib
import SupplyNet.Proofs.Network.Reprofiled

/-!
Grids with finer steps. Each step is divided into as many equal ones, in which all flows go on as
before; what a storage takes in during a step is spread evenly, and its level is interpolated.
-/
set_option autoImplicit false

namespace SupplyNet

/-! ## Grids -/

/-- A grid each of whose steps is so many whole milliseconds of the other grid. -/
structure Grid.Refines (coarse fine : Grid) (k : Nat) : Prop where
  start : fine.start = coarse.start
  step : coarse.step = k * fine.step
  millis : (Stamp.nanosPerMilli : Int) ∣ fine.step
  size : fine.size = k * coarse.size

namespace Grid.Refines

variable {coarse fine : Grid} {k : Nat} (h : coarse.Refines fine k)

include h

theorem pos : 0 < k := by
  have hsize := fine.size_pos
  rw [h.size] at hsize
  exact Nat.pos_of_mul_pos_right hsize

theorem hours : (fine.hours : Rat) = coarse.hours / k := by
  have hk : (k : Rat) ≠ 0 := Nat.cast_ne_zero.2 h.pos.ne'
  have hmillis : coarse.stepMillis = k * fine.stepMillis := by
    unfold Grid.stepMillis Time.wholeMillis
    rw [h.step, Int.mul_tdiv_assoc _ h.millis]
  unfold Grid.hours
  rw [hmillis, show (Scalar.ofInt (k * fine.stepMillis) : Rat) =
    k * Scalar.ofInt fine.stepMillis from Int.cast_mul _ _]
  field_simp

end Grid.Refines

/-- The values of a series, each of them repeated as many times as a step is divided. -/
def Series.refined {K : Type} [Scalar K] (fine : Grid) (k : Nat) (s : Series K) : Series K :=
  { s with
    grid := fine
    values := (List.range fine.size).map fun t => s.values[t / k]?.getD 0
    length_eq := by simp }

theorem map_range_div {k : Nat} (hk : 0 < k) (l : List Rat) :
    (List.range (k * l.length)).map (fun t => l[t / k]?.getD 0) =
      l.flatMap (List.replicate k) := by
  induction l with
  | nil => simp
  | cons a l ih =>
    have hfirst : (List.range k).map (fun t => (a :: l)[t / k]?.getD 0) = List.replicate k a := by
      rw [List.eq_replicate_iff]
      refine ⟨by simp, fun b hb => ?_⟩
      obtain ⟨t, ht, rfl⟩ := List.mem_map.1 hb
      rw [Nat.div_eq_of_lt (List.mem_range.1 ht)]
      rfl
    have hrest : ∀ t, (a :: l)[(k + t) / k]?.getD 0 = l[t / k]?.getD 0 := by
      intro t
      rw [Nat.add_div_left t hk]
      rfl
    rw [List.length_cons, Nat.mul_succ, Nat.add_comm, List.range_add, List.map_append, hfirst,
      List.map_map, List.flatMap_cons, ← ih]
    exact congrArg _ (List.map_congr_left fun t _ => hrest t)

theorem Series.values_refined {s : Series Rat} {fine : Grid} {k : Nat}
    (h : s.grid.Refines fine k) :
    (s.refined fine k).values = s.values.flatMap (List.replicate k) := by
  unfold refined
  dsimp only
  rw [h.size, ← s.length_eq, map_range_div h.pos]

theorem Series.valueAt_refined (s : Series Rat) {fine : Grid} (k : Nat) (scale : Rat) {t : Nat}
    (ht : t < fine.size) : (s.refined fine k).valueAt scale t = s.valueAt scale (t / k) := by
  simp [valueAt, refined, ht]

/-- Each step of a sum counts as many times as it is divided. -/
theorem sum_range_div {k : Nat} (hk : 0 < k) (len : Nat) (g : Nat → Rat) :
    ∑ t ∈ Finset.range (k * len), g (t / k) = k * ∑ t ∈ Finset.range len, g t := by
  induction len with
  | zero => simp
  | succ len ih =>
    have hlast : ∀ r ∈ Finset.range k, g ((k * len + r) / k) = g len := by
      intro r hr
      rw [Nat.mul_add_div hk, Nat.div_eq_of_lt (Finset.mem_range.1 hr), add_zero]
    rw [Nat.mul_succ, Finset.sum_range_add, ih, Finset.sum_congr rfl hlast, Finset.sum_const,
      Finset.card_range, nsmul_eq_mul, Finset.sum_range_succ, mul_add]

/-! ## Storages -/

/-- Charge and discharge are spread over the finer steps, and the level is interpolated from the one
before. -/
def StorageValues.refined (k len : Nat) (v : StorageValues) : StorageValues where
  size := v.size
  level t :=
    let share : Rat := (t % k + 1 : Nat) / k
    (1 - share) * v.level ((t / k + len - 1) % len) + share * v.level (t / k)
  charge t := v.charge (t / k) / k
  discharge t := v.discharge (t / k) / k

section Storage

variable {k len : Nat} (hk : 0 < k)

include hk

/-- Before the first of some finer steps comes the last of the step before. -/
theorem previous_of_first {q : Nat} (hq : q < len) :
    (k * q + k * len - 1) % (k * len) = k * ((q + len - 1) % len) + (k - 1) := by
  cases q with
  | zero =>
    obtain ⟨m, rfl⟩ : ∃ m, len = m + 1 := ⟨len - 1, by omega⟩
    rw [previous_zero hq, Nat.mul_zero, previous_zero (Nat.mul_pos hk hq), Nat.add_sub_cancel,
      Nat.mul_succ]
    omega
  | succ q =>
    have hle : k * (q + 1) ≤ k * len := Nat.mul_le_mul_left k hq.le
    have hnext : k * (q + 1) = k * q + (k - 1) + 1 := by
      rw [Nat.mul_succ]
      omega
    rw [previous_succ (Nat.lt_of_succ_lt hq), hnext, previous_succ (by omega)]

omit hk in
theorem previous_of_later {q r : Nat} (hq : q < len) (hr : r + 1 < k) :
    (k * q + (r + 1) + k * len - 1) % (k * len) = k * q + r := by
  have hlt : k * q + r < k * len := by
    have hle : k * (q + 1) ≤ k * len := Nat.mul_le_mul_left k hq
    rw [Nat.mul_succ] at hle
    omega
  exact previous_succ hlt

theorem StorageValues.level_refined (v : StorageValues) (q : Nat) {r : Nat} (hr : r < k) :
    (v.refined k len).level (k * q + r) =
      (1 - (r + 1) / k) * v.level ((q + len - 1) % len) + (r + 1) / k * v.level q := by
  unfold refined
  dsimp only
  rw [Nat.mul_add_div hk, Nat.div_eq_of_lt hr, add_zero, Nat.mul_add_mod, Nat.mod_eq_of_lt hr,
    Nat.cast_add, Nat.cast_one]

/-- At the end of a step the level is that of the step. -/
theorem StorageValues.level_refined_last (v : StorageValues) (q : Nat) :
    (v.refined k len).level (k * q + (k - 1)) = v.level q := by
  have hone : (((k - 1 : Nat) : Rat) + 1) / k = 1 := by
    rw [← Nat.cast_succ, Nat.succ_eq_add_one, Nat.sub_add_cancel hk,
      div_self (Nat.cast_ne_zero.2 hk.ne')]
  rw [level_refined hk v q (by omega), hone, sub_self, zero_mul, zero_add, one_mul]

/-- How much of a step has passed after some of the finer ones. -/
theorem share_mem {r : Nat} (hr : r < k) :
    0 ≤ ((r : Rat) + 1) / k ∧ ((r : Rat) + 1) / k ≤ 1 := by
  have hpos : (0 : Rat) < k := Nat.cast_pos.2 hk
  have hle : (r : Rat) + 1 ≤ k := by
    rw [← Nat.cast_succ]
    exact Nat.cast_le.2 hr
  exact ⟨by positivity, (div_le_one hpos).2 hle⟩

omit hk in
theorem exists_step {t : Nat} (ht : t < k * len) : ∃ q < len, ∃ r < k, t = k * q + r :=
  ⟨t / k, Nat.div_lt_of_lt_mul ht, t % k,
    Nat.mod_lt t (Nat.pos_of_mul_pos_right (Nat.zero_lt_of_lt ht)), (Nat.div_add_mod t k).symm⟩

theorem StorageValues.Nonneg.refined {v : StorageValues} (h : v.Nonneg len) :
    (v.refined k len).Nonneg (k * len) := by
  have hpos : (0 : Rat) ≤ k := Nat.cast_nonneg k
  refine ⟨h.size, fun t ht => ?_, fun t ht => ?_, fun t ht => ?_⟩
  · obtain ⟨q, hq, r, hr, rfl⟩ := exists_step ht
    obtain ⟨hshare, hshare'⟩ := share_mem hk hr
    have hbefore := h.level ((q + len - 1) % len) (Nat.mod_lt _ (Nat.zero_lt_of_lt hq))
    rw [level_refined hk v q hr]
    exact add_nonneg (mul_nonneg (sub_nonneg.2 hshare') hbefore)
      (mul_nonneg hshare (h.level q hq))
  · exact div_nonneg (h.charge _ (Nat.div_lt_of_lt_mul ht)) hpos
  · exact div_nonneg (h.discharge _ (Nat.div_lt_of_lt_mul ht)) hpos

/-- A storage that keeps its level goes through the same cycle in finer steps. -/
theorem Storage.Cycle.refined {s : Storage Rat} {hours : Rat} {v : StorageValues}
    (h : s.Cycle hours len v) (hloss : s.storageLoss = 0) :
    s.Cycle (hours / k) (k * len) (v.refined k len) := by
  intro t ht
  obtain ⟨q, hq, r, hr, rfl⟩ := exists_step ht
  have hpos : (0 : Rat) < k := Nat.cast_pos.2 hk
  have hdiv : (k * q + r) / k = q := by rw [Nat.mul_add_div hk, Nat.div_eq_of_lt hr, add_zero]
  have hstep := h q hq
  have hspeed : s.speed * (hours / k) * v.size = s.speed * hours * v.size / k := by ring
  have hcharge : (v.refined k len).charge (k * q + r) = v.charge q / k := by
    change v.charge ((k * q + r) / k) / k = _
    rw [hdiv]
  have hdischarge : (v.refined k len).discharge (k * q + r) = v.discharge q / k := by
    change v.discharge ((k * q + r) / k) / k = _
    rw [hdiv]
  constructor
  · rw [hcharge]
    exact (div_le_div_of_nonneg_right hstep.charge_le hpos.le).trans hspeed.ge
  · rw [hdischarge]
    exact (div_le_div_of_nonneg_right hstep.discharge_le hpos.le).trans hspeed.ge
  · obtain ⟨hshare, hshare'⟩ := share_mem hk hr
    have hbefore := (h ((q + len - 1) % len) (Nat.mod_lt _ (Nat.zero_lt_of_lt hq))).level_le
    rw [StorageValues.level_refined hk v q hr]
    calc (1 - (r + 1) / k) * v.level ((q + len - 1) % len) + (r + 1) / k * v.level q
        ≤ (1 - (r + 1) / k) * v.size + (r + 1) / k * v.size :=
          add_le_add (mul_le_mul_of_nonneg_left hbefore (sub_nonneg.2 hshare'))
            (mul_le_mul_of_nonneg_left hstep.level_le hshare)
      _ = v.size := by ring
  · have hlevel := hstep.level_eq
    rw [hloss, sub_zero, one_mul] at hlevel ⊢
    rw [hcharge, hdischarge, StorageValues.level_refined hk v q hr, hlevel]
    cases r with
    | zero =>
      rw [add_zero, previous_of_first hk hq, StorageValues.level_refined_last hk, Nat.cast_zero]
      ring
    | succ r =>
      rw [previous_of_later hq hr, StorageValues.level_refined hk v q (Nat.lt_of_succ_lt hr),
        hlevel, Nat.cast_succ]
      ring

end Storage

/-! ## Operations -/

/-- The same operation in finer steps. -/
def Operation.refined (k len : Nat) (o : Operation) : Operation where
  size := o.size
  storage := o.storage.refined k len
  inflow t := o.inflow (t / k)
  outflow t := o.outflow (t / k)

namespace Node

variable {nodes : List (Node Rat)} {catalogue : Catalogue Rat} {n : Node Rat} {o : Operation}
variable {hours : Rat} {k len : Nat} (hk : 0 < k)

include hk

theorem netCharge_refined (t : Nat) :
    n.netCharge (hours / k) (o.refined k len) t = n.netCharge hours o (t / k) := by
  have hne : (k : Rat) ≠ 0 := Nat.cast_ne_zero.2 hk.ne'
  unfold netCharge
  split
  · change (o.storage.charge (t / k) / k - o.storage.discharge (t / k) / k) / (hours / k) = _
    rw [← sub_div, div_div_div_cancel_right₀ hne]
  · rfl

theorem chargeFlow_refined (t : Nat) :
    n.chargeFlow (hours / k) (o.refined k len) t = n.chargeFlow hours o (t / k) := by
  have hne : (k : Rat) ≠ 0 := Nat.cast_ne_zero.2 hk.ne'
  unfold chargeFlow
  split
  · change 1 / (hours / k) * (o.storage.charge (t / k) / k) = _
    rw [one_div_mul_eq_div, div_div_div_cancel_right₀ hne, one_div_mul_eq_div]
  · rfl

/-- A node operates in finer steps as it does in coarse ones, unless its storage loses something. -/
theorem Operates.refined (h : n.Operates nodes catalogue hours len o)
    (hloss : ∀ s ∈ n.storage, s.storageLoss = 0) :
    n.Operates nodes catalogue (hours / k) (k * len) (o.refined k len) where
  balanced output ho t ht := by
    rw [netCharge_refined hk]
    exact h.balanced output ho (t / k) (Nat.div_lt_of_lt_mul ht)
  cycle s hs := (h.cycle s hs).refined hk (hloss s hs)
  inputs r hr t ht := h.inputs r hr (t / k) (Nat.div_lt_of_lt_mul ht)
  outputs r hr t ht := h.outputs r hr (t / k) (Nat.div_lt_of_lt_mul ht)
  limited hsize hkind t ht := by
    rw [chargeFlow_refined hk]
    exact h.limited hsize hkind (t / k) (Nat.div_lt_of_lt_mul ht)

/-- The costs are the same, as shorter flows cost less. -/
theorem expenses_refined (currency : Rat) :
    n.expenses nodes catalogue currency (hours / k) (k * len) (o.refined k len) =
      n.expenses nodes catalogue currency hours len o := by
  have hne : (k : Rat) ≠ 0 := Nat.cast_ne_zero.2 hk.ne'
  have hflow : n.flowExpenses nodes catalogue currency (hours / k) (k * len) (o.refined k len) =
      n.flowExpenses nodes catalogue currency hours len o := by
    unfold flowExpenses
    cases n.inputFlowCosts with
    | none => rfl
    | some costs =>
      refine congrArg List.sum (List.map_congr_left fun l _ => ?_)
      change _ * (hours / k) * ∑ t ∈ Finset.range (k * len), o.inflow (t / k) l = _
      rw [sum_range_div hk len fun t => o.inflow t l]
      field_simp
  unfold expenses
  rw [hflow]
  rfl

end Node

end SupplyNet
