import Mathlib
import SupplyNet.Proofs.Network.Costs
import SupplyNet.Proofs.Network.History
import SupplyNet.Proofs.Network.LevelCheck
import SupplyNet.Proofs.Network.Restocked

/-!
The levels of storages in minimal assignments. A storage that is not full in any time step could be
built smaller, unless it charges or discharges as fast as its size allows. A storage that is not
empty in any time step could be run at lower levels and built smaller, unless it would lose less of
them then and what is not lost had nowhere to go.
-/
set_option autoImplicit false

namespace SupplyNet

/-! ## Full and empty storages -/

/-- A storage is full in some time step. -/
def StorageValues.IsFull (steps : Nat) (v : StorageValues) : Prop := ∃ t < steps, v.level t = v.size

/-- A storage is empty in some time step. -/
def StorageValues.IsEmptied (steps : Nat) (v : StorageValues) : Prop := ∃ t < steps, v.level t = 0

/-- A storage charges or discharges as fast as its size allows in some time step. -/
structure Storage.AtFullSpeed (s : Storage Rat) (hours : Rat) (steps : Nat) (v : StorageValues) :
    Prop where
  size_pos : 0 < v.size
  reached : ∃ t < steps,
    v.charge t = s.speed * hours * v.size ∨ v.discharge t = s.speed * hours * v.size

/-- A storage loses nothing when it charges, and a time step is enough to fill it. -/
structure Storage.Quick (s : Storage Rat) (hours : Rat) : Prop where
  lossless : s.chargingLoss = 0
  fast : 1 ≤ s.speed * hours

/-- The size of a storage is not needed for its speed. -/
def Storage.SizedByLevel (s : Storage Rat) (hours : Rat) (steps : Nat) (v : StorageValues) : Prop :=
  s.Quick hours ∨ ¬s.AtFullSpeed hours steps v

theorem exists_lt_forall_le {steps : Nat} {f : Nat → Rat} {b : Rat} (h : ∀ t < steps, f t < b) :
    ∃ c < b, ∀ t < steps, f t ≤ c := by
  induction steps with
  | zero => exact ⟨b - 1, sub_one_lt b, fun t ht => absurd ht (Nat.not_lt_zero t)⟩
  | succ steps ih =>
    obtain ⟨c, hc, hall⟩ := ih fun t ht => h t (Nat.lt_succ_of_lt ht)
    refine ⟨max c (f steps), max_lt hc (h steps (Nat.lt_succ_self steps)), fun t ht => ?_⟩
    rcases Nat.lt_succ_iff_lt_or_eq.1 ht with ht | rfl
    · exact (hall t ht).trans (le_max_left _ _)
    · exact le_max_right _ _

theorem exists_pos_forall_le {steps : Nat} {f : Nat → Rat} (h : ∀ t < steps, 0 < f t) :
    ∃ c > 0, ∀ t < steps, c ≤ f t := by
  obtain ⟨c, hc, hall⟩ :=
    exists_lt_forall_le (f := fun t => -f t) fun t ht => neg_lt_zero.2 (h t ht)
  exact ⟨-c, neg_pos.2 hc, fun t ht => neg_le.1 (hall t ht)⟩

/-- If a whole of two numbers reaches the whole of their bounds, the first reaches its own. -/
theorem eq_of_blend_eq {a b x y x' y' : Rat} (ha : 0 < a) (hb : 0 ≤ b) (h : x ≤ y) (h' : x' ≤ y')
    (he : a * x + b * x' = a * y + b * y') : x = y := by
  have hle := mul_le_mul_of_nonneg_left h' hb
  exact le_antisymm h (le_of_mul_le_mul_left (by linarith) ha)

theorem StorageValues.IsFull.congr {steps : Nat} {v w : StorageValues} (h : w.IsFull steps)
    (ha : v.Agree steps w) : v.IsFull steps := by
  obtain ⟨t, ht, hlevel⟩ := h
  rw [ha.level t ht, ha.size] at hlevel
  exact ⟨t, ht, hlevel⟩

/-- Levels that reach both ends are plausible. -/
theorem StorageValues.Plausible.of_full_emptied {tolerance : Rat} {steps : Nat} {v : StorageValues}
    (htolerance : 0 ≤ tolerance) (hfull : v.IsFull steps) (hemptied : v.IsEmptied steps) :
    v.Plausible tolerance steps := by
  have hleeway : 0 ≤ v.leeway tolerance :=
    mul_nonneg htolerance (zero_le_one.trans (le_max_right _ _))
  obtain ⟨t, ht, hsize⟩ := hfull
  obtain ⟨u, hu, hzero⟩ := hemptied
  exact ⟨⟨u, hu, hzero.trans_le hleeway⟩, t, ht, (sub_le_self _ hleeway).trans_eq hsize.symm⟩

namespace Storage

variable {s : Storage Rat} {hours : Rat} {steps : Nat} {gift gift' : Nat → Rat}
variable {v w : StorageValues}

theorem AtFullSpeed.congr (h : s.AtFullSpeed hours steps w) (ha : v.Agree steps w) :
    s.AtFullSpeed hours steps v := by
  obtain ⟨hsize, t, ht, hreached⟩ := h
  rw [ha.size] at hsize
  rw [ha.size, ha.charge t ht, ha.discharge t ht] at hreached
  exact ⟨hsize, t, ht, hreached⟩

namespace Gains

variable (h : s.Gains hours steps gift v) (hv : v.Nonneg steps)

include h hv

/-- A storage that is neither full nor at full speed could be built smaller. -/
theorem exists_smaller (hsteps : 0 < steps) (hhours : 0 < hours) (hfull : ¬v.IsFull steps)
    (hspeed : ¬s.AtFullSpeed hours steps v) :
    ∃ size, 0 ≤ size ∧ size < v.size ∧ s.Gains hours steps gift (v.resized size) := by
  have hamount : 0 < s.speed * hours := mul_pos s.speed_mem.1 hhours
  have hlevel : ∀ t < steps, v.level t < v.size := fun t ht =>
    lt_of_le_of_ne (h.level_le t ht) fun he => hfull ⟨t, ht, he⟩
  have hsize : 0 < v.size := (hv.level 0 hsteps).trans_lt (hlevel 0 hsteps)
  have hcharge : ∀ t < steps, v.charge t < s.speed * hours * v.size := fun t ht =>
    lt_of_le_of_ne (h.charge_le t ht) fun he => hspeed ⟨hsize, t, ht, Or.inl he⟩
  have hdischarge : ∀ t < steps, v.discharge t < s.speed * hours * v.size := fun t ht =>
    lt_of_le_of_ne (h.discharge_le t ht) fun he => hspeed ⟨hsize, t, ht, Or.inr he⟩
  obtain ⟨size, hlt, hall⟩ := exists_lt_forall_le
    (f := fun t => max (v.level t) (max (v.charge t) (v.discharge t) / (s.speed * hours)))
    fun t ht => max_lt (hlevel t ht)
      ((div_lt_iff₀' hamount).2 (max_lt (hcharge t ht) (hdischarge t ht)))
  have hboth : ∀ t < steps, max (v.charge t) (v.discharge t) ≤ s.speed * hours * max size 0 :=
    fun t ht => (div_le_iff₀' hamount).1
      ((le_max_right _ _).trans ((hall t ht).trans (le_max_left _ _)))
  exact ⟨max size 0, le_max_right _ _, max_lt hlt hsize, h.resized
    (fun t ht => (le_max_left _ _).trans (hboth t ht))
    (fun t ht => (le_max_right _ _).trans (hboth t ht))
    fun t ht => (le_max_left _ _).trans ((hall t ht).trans (le_max_left _ _))⟩

/-- A quick storage that does not charge and discharge at once is full before it discharges or after
it charges at full speed. -/
theorem isFull_of_quick (hgift : ∀ t < steps, gift t = 0) (hquick : s.Quick hours)
    (hspeed : s.AtFullSpeed hours steps v)
    (hnet : ∀ t < steps, v.charge t = 0 ∨ v.discharge t = 0) : v.IsFull steps := by
  obtain ⟨hsize, t, ht, hreached⟩ := hspeed
  have hprevious : (t + steps - 1) % steps < steps := Nat.mod_lt _ (by omega)
  have hfast : v.size ≤ s.speed * hours * v.size := le_mul_of_one_le_left hsize.le hquick.fast
  have hkept : (1 - s.storageLoss) * v.level ((t + steps - 1) % steps) ≤
      v.level ((t + steps - 1) % steps) :=
    mul_le_of_le_one_left (hv.level _ hprevious) (sub_le_self _ s.storageLoss_mem.1)
  have hkept_nonneg : 0 ≤ (1 - s.storageLoss) * v.level ((t + steps - 1) % steps) :=
    mul_nonneg (sub_nonneg.2 s.storageLoss_mem.2.le) (hv.level _ hprevious)
  have hlevel := h.level_eq t ht
  rw [hgift t ht, hquick.lossless] at hlevel
  have hlevel_nonneg := hv.level t ht
  rcases hnet t ht with hzero | hzero
  · -- what it discharges was there before
    rcases hreached with hcharge | hdischarge
    · linarith
    · exact ⟨_, hprevious, le_antisymm (h.level_le _ hprevious) (by linarith)⟩
  · rcases hreached with hcharge | hdischarge
    · exact ⟨t, ht, le_antisymm (h.level_le t ht) (by linarith)⟩
    · linarith

end Gains

/-- Of two storages, the one is at full speed if a whole of them is. -/
theorem AtFullSpeed.of_blend {a b : Rat} (ha : 0 < a) (hb : 0 ≤ b) (hsize : 0 < v.size)
    (hv : s.Gains hours steps gift v) (hw : s.Gains hours steps gift' w)
    (h : s.AtFullSpeed hours steps (v.blend a b w)) : s.AtFullSpeed hours steps v := by
  obtain ⟨-, t, ht, hreached⟩ := h
  rw [StorageValues.mul_size_blend] at hreached
  exact ⟨hsize, t, ht, hreached.imp
    (eq_of_blend_eq ha hb (hv.charge_le t ht) (hw.charge_le t ht))
    (eq_of_blend_eq ha hb (hv.discharge_le t ht) (hw.discharge_le t ht))⟩

/-- Levels that were no higher than the size before are lowered below it. -/
theorem Gains.not_isFull_lowered_blend {a b depth : Rat} (ha : 0 < a) (hb : 0 ≤ b)
    (hdepth : 0 < depth) (hv : s.Gains hours steps gift v) (hw : s.Gains hours steps gift' w) :
    ¬((v.blend a b w).lowered (a * depth)).IsFull steps := by
  rintro ⟨t, ht, hlevel⟩
  have hwhole : a * v.level t + b * w.level t - a * depth = a * v.size + b * w.size := hlevel
  have hle := blend_le_blend ha.le hb (hv.level_le t ht) (hw.level_le t ht)
  have hpos := mul_pos ha hdepth
  linarith

end Storage

/-! ## Minimal assignments -/

/-- It costs nothing to hold less in a storage: it loses nothing of its level, or the network can
take up some amount in each time step that the storage is given. -/
def DrainsFreely (nodes : List (Node Rat)) (grid : Grid) (config : Config Rat) (net : Network Rat)
    (n : Node Rat) (s : Storage Rat) (x : Var → Rat) : Prop :=
  s.storageLoss = 0 ∨ ∃ gift : Rat, 0 < gift ∧ ∃ y,
    FeasibleGiven nodes grid config n s (fun _ => gift) y ∧
      net.model.objective.eval y ≤ net.model.objective.eval x

section Compiled

variable {nodes : List (Node Rat)} {grid : Grid} {config : Config Rat} {cs : List NodeCommodities}
variable {groups : List (Rows Rat)} {net : Network Rat} {n : Node Rat} {s : Storage Rat}
variable {x y : Var → Rat}
variable (hc : Compiled nodes grid config cs groups net) (hbuilt : ∀ m ∈ nodes, m.Built)
variable (hn : n ∈ nodes) (hs : n.storage = some s)

include hc hbuilt hn hs

omit hc hbuilt hn hs in
/-- Either nothing is spared by lower levels, or some part of what takes gifts takes it up. -/
theorem DrainsFreely.exists_part (h : DrainsFreely nodes grid config net n s x)
    (hx : FeasibleGiven nodes grid config n s (fun _ => 0) x) {depth : Rat} (hdepth : 0 < depth) :
    ∃ share gift y, 0 ≤ share ∧ share < 1 ∧ FeasibleGiven nodes grid config n s (fun _ => gift) y ∧
      net.model.objective.eval y ≤ net.model.objective.eval x ∧
      share * gift = (1 - share) * (s.storageLoss * depth) := by
  rcases s.storageLoss_mem.1.eq_or_lt with hzero | hloss
  · refine ⟨0, 0, x, le_rfl, one_pos, hx, le_rfl, ?_⟩
    rw [← hzero]
    ring
  · obtain hzero | ⟨gift, hgift, y, hy, hcost⟩ := h
    · exact absurd hzero hloss.ne'
    · obtain ⟨share, hpos, hlt, hshare⟩ := exists_share hgift (mul_pos hloss hdepth)
      exact ⟨share, gift, y, hpos.le, hlt, hy, hcost, hshare⟩

/-- If a storage can be run in another way at the same size, this is minimal as well. -/
theorem Compiled.exists_minimal_restocked {gift : Nat → Rat} {w : StorageValues}
    (hx : net.model.program.Minimal x) (hy : FeasibleGiven nodes grid config n s gift y)
    (hcost : net.model.objective.eval y ≤ net.model.objective.eval x)
    (hstands : ((registry nodes grid.size).storageValues y n.name).StandsFor grid.size w)
    (hsize : w.size = ((registry nodes grid.size).storageValues y n.name).size)
    (hgains : s.Gains grid.hours grid.size (fun _ => 0) w) :
    ∃ z, net.model.program.Minimal z ∧
      w.Agree grid.size ((registry nodes grid.size).storageValues z n.name) := by
  obtain ⟨z, hz, hagree, hsame⟩ :=
    hc.exists_feasible_restocked hn hs hbuilt hy hstands hsize hgains
  exact ⟨z, ⟨hz, fun u hu => (hsame.trans_le hcost).trans (hx.2 u hu)⟩, hagree⟩

variable (hcatalogue : config.catalogue.Formed) (hcosts : s.costs.Formed)
variable (hprice : 0 < s.costs.magnitude)

include hcatalogue hcosts hprice

/-- A storage is full or at full speed in some time step, as it could be built smaller otherwise. -/
theorem Compiled.isFull_or_atFullSpeed (hx : net.model.program.Minimal x) :
    ((registry nodes grid.size).storageValues x n.name).IsFull grid.size ∨
      s.AtFullSpeed grid.hours grid.size ((registry nodes grid.size).storageValues x n.name) := by
  by_contra hneither
  obtain ⟨hfull, hspeed⟩ := not_or.1 hneither
  obtain ⟨currency, hcurrency⟩ := hc.exists_currency
  have hx₀ := (hc.feasibleGiven_zero_iff hbuilt hn hs).2 hx.1
  have hnonneg := hx₀.nonneg_storage hc hn hs
  obtain ⟨size, hsize, hlt, hgains⟩ :=
    hx₀.gains.exists_smaller hnonneg grid.size_pos grid.hours_pos hfull hspeed
  obtain ⟨y, hy, -, hcost⟩ := hc.exists_restocked hn hs hbuilt hcurrency hx₀
    (hnonneg.standsFor_resized hsize) hgains
  have hpos : 0 < n.storagePrice nodes config.catalogue currency.scale s :=
    Node.storagePrice_pos hcatalogue (Measure.Unit.formed_of_read hcurrency) hcosts hprice
  have hsaved := mul_neg_of_pos_of_neg hpos (sub_neg.2 hlt)
  have hle : net.model.objective.eval x ≤ net.model.objective.eval y :=
    hx.2 y ((hc.feasibleGiven_zero_iff hbuilt hn hs).1 hy)
  rw [hcost] at hle
  exact absurd hle (not_le.2 (add_lt_of_neg_right _ hsaved))

/-- If its size is not needed for its speed, a storage is full in some time step. -/
theorem Compiled.isFull_of_sizedByLevel (hx : net.model.program.Minimal x)
    (hsized : s.SizedByLevel grid.hours grid.size
      ((registry nodes grid.size).storageValues x n.name)) :
    ((registry nodes grid.size).storageValues x n.name).IsFull grid.size := by
  rcases hsized with hquick | hspeed
  · -- what it charges and discharges at once costs nothing, so it may as well not be
    have hx₀ := (hc.feasibleGiven_zero_iff hbuilt hn hs).2 hx.1
    have hnonneg := hx₀.nonneg_storage hc hn hs
    have hless := hnonneg.both_mem
    have hgains := (hx₀.gains.netted fun t ht => (hless t ht).1).congr_gift fun t _ =>
      show (0 : Rat) = _ by rw [hquick.lossless, zero_mul, sub_zero]
    obtain ⟨y, hy, hagree⟩ := hc.exists_minimal_restocked hbuilt hn hs hx hx₀ le_rfl
      (hnonneg.standsFor_netted hless) rfl hgains
    have hy₀ := (hc.feasibleGiven_zero_iff hbuilt hn hs).2 hy.1
    have hfull : ((registry nodes grid.size).storageValues y n.name).IsFull grid.size := by
      refine (hc.isFull_or_atFullSpeed hbuilt hn hs hcatalogue hcosts hprice hy).elim id
        fun hspeed => hy₀.gains.isFull_of_quick (hy₀.nonneg_storage hc hn hs) (fun _ _ => rfl)
          hquick hspeed fun t ht => ?_
      rw [hagree.charge t ht, hagree.discharge t ht]
      exact StorageValues.netted_both _ t
    obtain ⟨t, ht, hlevel⟩ := hfull.congr hagree
    exact ⟨t, ht, hlevel⟩
  · exact (hc.isFull_or_atFullSpeed hbuilt hn hs hcatalogue hcosts hprice hx).resolve_right hspeed

/-- If it drains freely as well, it is empty in some time step. It could be run at lower levels
otherwise, and would not be full then. -/
theorem Compiled.isEmptied_of_drainsFreely (hx : net.model.program.Minimal x)
    (hsized : s.SizedByLevel grid.hours grid.size
      ((registry nodes grid.size).storageValues x n.name))
    (hdrains : DrainsFreely nodes grid config net n s x) :
    ((registry nodes grid.size).storageValues x n.name).IsEmptied grid.size := by
  by_contra hnever
  have hx₀ := (hc.feasibleGiven_zero_iff hbuilt hn hs).2 hx.1
  have hnonneg := hx₀.nonneg_storage hc hn hs
  have hlevel : ∀ t < grid.size, 0 < ((registry nodes grid.size).storageValues x n.name).level t :=
    fun t ht => (hnonneg.level t ht).lt_of_ne' fun hzero => hnever ⟨t, ht, hzero⟩
  obtain ⟨depth, hdepth, hall⟩ := exists_pos_forall_le hlevel
  obtain ⟨share, gift, y, hshare₀, hshare₁, hy, hcost, hshare⟩ := hdrains.exists_part hx₀ hdepth
  have hrest : 0 < 1 - share := sub_pos.2 hshare₁
  have hz := hx₀.blend hrest.le hshare₀ (sub_add_cancel 1 share) hy
  have hgains := (hz.gains.lowered (mul_nonneg hrest.le hdepth.le)).congr_gift fun t _ =>
    show (0 : Rat) = (1 - share) * 0 + share * gift - s.storageLoss * ((1 - share) * depth) by
      linarith
  have hle : net.model.objective.eval (fun v => (1 - share) * x v + share * y v) ≤
      net.model.objective.eval x := by
    rw [net.model.objective.eval_blend (sub_add_cancel 1 share)]
    have hpart := mul_le_mul_of_nonneg_left hcost hshare₀
    linarith
  obtain ⟨u, hu, hagree⟩ := hc.exists_minimal_restocked hbuilt hn hs hx hz hle
    (hnonneg.standsFor_lowered_blend (hy.nonneg_storage hc hn hs) hrest.le hshare₀ hall) rfl hgains
  have hsized' : s.SizedByLevel grid.hours grid.size
      ((registry nodes grid.size).storageValues u n.name) := by
    refine hsized.imp_right fun hspeed hreached => hspeed ?_
    have hlowered := hreached.congr hagree
    exact .of_blend hrest hshare₀ ((hlevel 0 grid.size_pos).trans_le
      (hx₀.gains.level_le 0 grid.size_pos)) hx₀.gains hy.gains ⟨hlowered.size_pos, hlowered.reached⟩
  have hfull := hc.isFull_of_sizedByLevel hbuilt hn hs hcatalogue hcosts hprice hu hsized'
  exact hx₀.gains.not_isFull_lowered_blend hrest hshare₀ hdepth hy.gains (hfull.congr hagree)

end Compiled

section Network

variable {nodes : List (Node Rat)} {grid : Grid} {config : Config Rat} {net : Network Rat}
variable {solution : Solution Rat}

/-- In a minimal solution, a storage that costs anything is full in some time step or at full speed
in some. If its size is not needed for its speed, it is full, and if it drains freely, it is empty
as well. So the check of the levels only fails if a storage is slow or its losses are of use. -/
theorem Network.checkLevels_of_minimal (hbuilt : ∀ m ∈ nodes, m.Built)
    (hformed : ∀ m ∈ nodes, m.CostsFormed) (hcatalogue : config.catalogue.Formed)
    (h : Network.build nodes grid config = .ok net)
    (hx : net.model.program.Minimal (assignment solution.values)) :
    (∀ n ∈ nodes, ∀ s, n.storage = some s → 0 < s.costs.magnitude →
      let v := net.model.storageValues (assignment solution.values) n.name
      (v.IsFull grid.size ∨ s.AtFullSpeed grid.hours grid.size v) ∧
      (s.SizedByLevel grid.hours grid.size v → v.IsFull grid.size ∧
        (DrainsFreely nodes grid config net n s (assignment solution.values) →
          v.IsEmptied grid.size))) ∧
    (({ net with solution := some solution } : Network Rat).checkLevels = .ok () ↔
      ∀ n ∈ nodes, ∀ s, n.storage = some s → 0 < s.costs.magnitude →
        (net.model.storageValues (assignment solution.values) n.name).Plausible config.tolerance
          grid.size) ∧
    (0 ≤ config.tolerance →
      (∀ n ∈ nodes, ∀ s, n.storage = some s → 0 < s.costs.magnitude →
        s.SizedByLevel grid.hours grid.size
          (net.model.storageValues (assignment solution.values) n.name) ∧
        DrainsFreely nodes grid config net n s (assignment solution.values)) →
      ({ net with solution := some solution } : Network Rat).checkLevels = .ok () ∧
      ∀ solver, net.model.solve solver = .ok solution →
        (net.optimizeWith solver).1 = .ok solution) := by
  obtain ⟨cs, groups, hc⟩ := Network.build_eq_ok_iff.1 h
  have hcheck := hc.checkLevels_eq_ok_iff solution
  simp only [hc.storageValues_eq]
  have hfull : ∀ n ∈ nodes, ∀ s, n.storage = some s → 0 < s.costs.magnitude →
      s.SizedByLevel grid.hours grid.size ((registry nodes grid.size).storageValues
        (assignment solution.values) n.name) → ((registry nodes grid.size).storageValues
        (assignment solution.values) n.name).IsFull grid.size := fun n hn s hs hprice =>
    hc.isFull_of_sizedByLevel hbuilt hn hs hcatalogue ((hformed n hn).storage s hs) hprice hx
  have hemptied : ∀ n ∈ nodes, ∀ s, n.storage = some s → 0 < s.costs.magnitude →
      s.SizedByLevel grid.hours grid.size ((registry nodes grid.size).storageValues
        (assignment solution.values) n.name) →
      DrainsFreely nodes grid config net n s (assignment solution.values) →
      ((registry nodes grid.size).storageValues
        (assignment solution.values) n.name).IsEmptied grid.size := fun n hn s hs hprice =>
    hc.isEmptied_of_drainsFreely hbuilt hn hs hcatalogue ((hformed n hn).storage s hs) hprice hx
  refine ⟨fun n hn s hs hprice => ⟨hc.isFull_or_atFullSpeed hbuilt hn hs hcatalogue
      ((hformed n hn).storage s hs) hprice hx, fun hsized =>
        ⟨hfull n hn s hs hprice hsized, hemptied n hn s hs hprice hsized⟩⟩,
    hcheck, fun htolerance hall => ?_⟩
  have hok : ({ net with solution := some solution } : Network Rat).checkLevels = .ok () := by
    refine hcheck.2 fun n hn s hs hprice => ?_
    obtain ⟨hsized, hdrains⟩ := hall n hn s hs hprice
    exact .of_full_emptied htolerance (hfull n hn s hs hprice hsized)
      (hemptied n hn s hs hprice hsized hdrains)
  exact ⟨hok, fun solver hsolve => net.answer_of_checked hsolve hok⟩

end Network

/-! ## A quick battery -/

/-- It is filled in an hour and loses nothing. -/
def quickBattery : Storage Rat :=
  ⟨.plain 1, 1, 0, 0, windBattery.storageLoss_mem, windBattery.storageLoss_mem,
    one_mem, windBattery.costs_nonneg⟩

/-- One unit is kept for the second hour. -/
def quickValues : Array Rat := #[2, 1, 1, 0, 1, 0, 0, 1, 1, 1]

/-- The battery is full in the first hour and empty in the second. -/
theorem checked_quickNetwork :
    ∃ net solution, Network.build (builtNodes (lullDrafts quickBattery)) windGrid .standard =
        .ok net ∧
      (∀ n ∈ builtNodes (lullDrafts quickBattery), n.Built) ∧
      (∀ n ∈ builtNodes (lullDrafts quickBattery), n.CostsFormed) ∧
      (Config.standard : Config Rat).catalogue.Formed ∧
      (∃ n ∈ builtNodes (lullDrafts quickBattery), n.storage = some quickBattery ∧
        0 < quickBattery.costs.magnitude) ∧
      net.model.program.Minimal (assignment solution.values) ∧
      0 ≤ (Config.standard : Config Rat).tolerance ∧
      ({ net with solution := some solution } : Network Rat).checkLevels = .ok () ∧
      (net.optimizeWith fun _ => .optimal quickValues).1 = .ok solution := by
  obtain ⟨net, h⟩ : ∃ net : Network Rat, Network.build (builtNodes (lullDrafts quickBattery))
      windGrid .standard = .ok net :=
    exists_of_isOk (by decide +kernel)
  obtain ⟨n, hn, -, hs⟩ := exists_builtNode (d := (lullDrafts quickBattery)[0])
    (List.getElem_mem _) (by decide +kernel)
  have hbuilt : ∀ m ∈ builtNodes (lullDrafts quickBattery), m.Built := fun _ hm => built_of_mem hm
  have hplain : ∀ m ∈ builtNodes (lullDrafts quickBattery),
      (m.costs.all fun q => q.unit.isNone) = true ∧
      (m.storage.all fun s => s.costs.unit.isNone) = true ∧
      (m.inputFlowCosts.all fun q => q.unit.isNone) = true := by
    decide +kernel
  have hformed : ∀ m ∈ builtNodes (lullDrafts quickBattery), m.CostsFormed := fun m hm =>
    Node.costsFormed_of_plain (hplain m hm)
  obtain ⟨solution, hvalues, hsolve⟩ : ∃ solution : Solution Rat, solution.values = quickValues ∧
      net.model.solve (fun _ => .optimal quickValues) = .ok solution :=
    ⟨_, rfl, net.model.solution_eq_ok quickValues⟩
  have hminimal : net.model.program.Minimal (assignment solution.values) := by
    rw [hvalues]
    exact Network.minimal_of_all [-1, -2, 0, 0, 0, -1, 0, -1, 0, -1, -1, -2] h (by decide +kernel)
      (by decide +kernel)
  have hquick : ∀ m ∈ builtNodes (lullDrafts quickBattery), (m.storage.all fun s =>
      s.chargingLoss = 0 ∧ 1 ≤ s.speed * windGrid.hours ∧ s.storageLoss = 0) = true := by
    decide +kernel
  have htolerance : 0 ≤ (Config.standard : Config Rat).tolerance := by decide +kernel
  obtain ⟨-, -, hcheck⟩ :=
    Network.checkLevels_of_minimal hbuilt hformed Catalogue.formed_standard h hminimal
  obtain ⟨hok, hoptimize⟩ := hcheck htolerance fun m hm s hs _ => by
    have hplain := hquick m hm
    rw [hs] at hplain
    obtain ⟨hlossless, hfast, hkept⟩ := of_decide_eq_true hplain
    exact ⟨Or.inl ⟨hlossless, hfast⟩, Or.inl hkept⟩
  have hprice : 0 < quickBattery.costs.magnitude := one_pos
  exact ⟨net, solution, h, hbuilt, hformed, Catalogue.formed_standard, ⟨n, hn, hs, hprice⟩,
    hminimal, htolerance, hok, hoptimize _ hsolve⟩

/-! ## Storages of which the check complains -/

/-- It is filled in an hour and loses half of its level in an hour. -/
def lossyBattery : Storage Rat :=
  ⟨.plain 1, 1, 1 / 2, 0, half_mem, windBattery.storageLoss_mem, one_mem,
    windBattery.costs_nonneg⟩

/-- Twice as much sun as a town needs, and nowhere to go with the rest. -/
def surplusDrafts : List (Draft Rat) :=
  [{ name := "sun", role := .fixedInput (.constant windGrid 2) },
    { name := "hub", role := .generic ⟨["sun"], .single "electricity"⟩,
      storage := some lossyBattery },
    { name := "town",
      role := .fixedOutput ⟨["hub"], .single "electricity"⟩ (.constant windGrid 1) }]

/-- The battery takes half of its size in an hour at most, so it is twice as large as its levels
need. -/
def slowValues : Array Rat := #[3, 4, 2, 0, 2, 0, 0, 1, 1, 1]

/-- Half of the level is lost in each hour, which is what the town does not need. -/
def surplusValues : Array Rat := #[2, 2, 2, 2, 2, 1, 1, 0, 0, 1, 1]

/-- The check answers what it can be seen to answer for the values that a solver finds. -/
theorem Network.exists_checked {nodes : List (Node Rat)} {grid : Grid} {config : Config Rat}
    {net : Network Rat} {values : Array Rat} {answer : Except (Error Rat) Unit}
    (h : Network.build nodes grid config = .ok net)
    (hall : (Network.build nodes grid config).toOption.all (fun net =>
      ({ net with solution := some ⟨values, net.model.objective.eval (assignment values),
        net.model.named⟩ } : Network Rat).checkLevels = answer) = true) :
    ∃ solution, solution.values = values ∧
      net.model.solve (fun _ => .optimal values) = .ok solution ∧
      ({ net with solution := some solution } : Network Rat).checkLevels = answer := by
  rw [h] at hall
  exact ⟨_, rfl, net.model.solution_eq_ok values, of_decide_eq_true hall⟩

/-- Neither is full and empty, though both are minimal. -/
theorem implausible_minimal :
    (∃ net, Network.build (builtNodes slowDrafts) windGrid .standard = .ok net ∧
      net.model.program.Minimal (assignment slowValues) ∧
      ∃ solution, solution.values = slowValues ∧
        net.model.solve (fun _ => .optimal slowValues) = .ok solution ∧
        ({ net with solution := some solution } : Network Rat).checkLevels =
          .error (.level (.neverFull "wind" 2 4))) ∧
    ∃ net, Network.build (builtNodes surplusDrafts) windGrid .standard = .ok net ∧
      net.model.program.Minimal (assignment surplusValues) ∧
      ∃ solution, solution.values = surplusValues ∧
        net.model.solve (fun _ => .optimal surplusValues) = .ok solution ∧
        ({ net with solution := some solution } : Network Rat).checkLevels =
          .error (.level (.neverEmpty "hub" 2 2)) := by
  constructor
  · obtain ⟨net, h⟩ := exists_slowNetwork
    exact ⟨net, h, Network.minimal_of_all [-1, -6, -2, 0, 0, -3, 0, 0, 0, -6, -1, -6] h
      (by decide +kernel) (by decide +kernel), Network.exists_checked h (by decide +kernel)⟩
  · obtain ⟨net, h⟩ : ∃ net : Network Rat, Network.build (builtNodes surplusDrafts) windGrid
        .standard = .ok net :=
      exists_of_isOk (by decide +kernel)
    exact ⟨net, h, Network.minimal_of_all
      [4 / 3, 2 / 3, 4 / 3, 2 / 3, 0, 0, -1, 4 / 3, 0, 0, 0, 2 / 3, 4 / 3, 2 / 3] h
      (by decide +kernel) (by decide +kernel), Network.exists_checked h (by decide +kernel)⟩

end SupplyNet
