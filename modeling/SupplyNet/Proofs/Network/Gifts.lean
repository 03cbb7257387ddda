import Mathlib
import SupplyNet.Proofs.Network.Blending

/-!
Gifts to a storage. What a network can do whose storage is given something in each time step, on top
of what it charges, is feasible but for the levels of this storage; without gifts it is feasible.
Parts of two such assignments that make a whole have the parts of the two gifts and costs.
-/
set_option autoImplicit false

namespace SupplyNet

/-! ## Storages -/

/-- The conditions of a storage that is given something in each time step: charge and discharge keep
to the speed, the level keeps to the size, and it is what remains of the level before and of the
charge, less the discharge, and the gift. -/
structure Storage.Gains (s : Storage Rat) (hours : Rat) (steps : Nat) (gift : Nat → Rat)
    (v : StorageValues) : Prop where
  charge_le : ∀ t < steps, v.charge t ≤ s.speed * hours * v.size
  discharge_le : ∀ t < steps, v.discharge t ≤ s.speed * hours * v.size
  level_le : ∀ t < steps, v.level t ≤ v.size
  level_eq : ∀ t < steps, v.level t = (1 - s.storageLoss) * v.level ((t + steps - 1) % steps) +
    (1 - s.chargingLoss) * v.charge t - v.discharge t + gift t

namespace StorageValues

/-- The same storage, where in each time step less is charged and as much less discharged. -/
def netted (v : StorageValues) (less : Nat → Rat) : StorageValues :=
  { v with charge := fun t => v.charge t - less t, discharge := fun t => v.discharge t - less t }

/-- The same storage with lower levels. -/
def lowered (v : StorageValues) (depth : Rat) : StorageValues :=
  { v with level := fun t => v.level t - depth }

/-- The same storage with another size. -/
def resized (v : StorageValues) (size : Rat) : StorageValues := { v with size := size }

end StorageValues

namespace Storage

variable {s : Storage Rat} {hours : Rat} {steps : Nat} {gift gift' : Nat → Rat}
variable {v w : StorageValues}

theorem gains_zero_iff_cycle : s.Gains hours steps (fun _ => 0) v ↔ s.Cycle hours steps v := by
  constructor
  · intro h t ht
    refine ⟨h.charge_le t ht, h.discharge_le t ht, h.level_le t ht, ?_⟩
    rw [h.level_eq t ht, add_zero]
  · intro h
    refine ⟨fun t ht => (h t ht).charge_le, fun t ht => (h t ht).discharge_le,
      fun t ht => (h t ht).level_le, fun t ht => ?_⟩
    rw [(h t ht).level_eq, add_zero]

namespace Gains

theorem congr_gift (h : s.Gains hours steps gift v) (hgift : ∀ t < steps, gift' t = gift t) :
    s.Gains hours steps gift' v := by
  refine ⟨h.charge_le, h.discharge_le, h.level_le, fun t ht => ?_⟩
  rw [hgift t ht]
  exact h.level_eq t ht

theorem congr (h : s.Gains hours steps gift v) (ha : v.Agree steps w) :
    s.Gains hours steps gift w := by
  refine ⟨fun t ht => ?_, fun t ht => ?_, fun t ht => ?_, fun t ht => ?_⟩
  · rw [ha.charge t ht, ha.size]
    exact h.charge_le t ht
  · rw [ha.discharge t ht, ha.size]
    exact h.discharge_le t ht
  · rw [ha.level t ht, ha.size]
    exact h.level_le t ht
  · rw [ha.level t ht, ha.level _ (Nat.mod_lt _ (by omega)), ha.charge t ht, ha.discharge t ht]
    exact h.level_eq t ht

theorem blend {a b : Rat} (ha : 0 ≤ a) (hb : 0 ≤ b) (h : s.Gains hours steps gift v)
    (h' : s.Gains hours steps gift' w) :
    s.Gains hours steps (fun t => a * gift t + b * gift' t) (v.blend a b w) := by
  refine ⟨fun t ht => ?_, fun t ht => ?_, fun t ht => ?_, fun t ht => ?_⟩
  · rw [StorageValues.mul_size_blend]
    exact blend_le_blend ha hb (h.charge_le t ht) (h'.charge_le t ht)
  · rw [StorageValues.mul_size_blend]
    exact blend_le_blend ha hb (h.discharge_le t ht) (h'.discharge_le t ht)
  · exact blend_le_blend ha hb (h.level_le t ht) (h'.level_le t ht)
  · unfold StorageValues.blend
    dsimp only
    rw [h.level_eq t ht, h'.level_eq t ht]
    ring

/-- Of what is charged and discharged at once, the loss is spared and has to go elsewhere. -/
theorem netted (h : s.Gains hours steps gift v) {less : Nat → Rat}
    (hless : ∀ t < steps, 0 ≤ less t) :
    s.Gains hours steps (fun t => gift t - s.chargingLoss * less t) (v.netted less) := by
  refine ⟨fun t ht => (sub_le_self _ (hless t ht)).trans (h.charge_le t ht),
    fun t ht => (sub_le_self _ (hless t ht)).trans (h.discharge_le t ht), h.level_le,
    fun t ht => ?_⟩
  unfold StorageValues.netted
  dsimp only
  rw [h.level_eq t ht]
  ring

/-- Of lower levels less is lost. -/
theorem lowered (h : s.Gains hours steps gift v) {depth : Rat} (hdepth : 0 ≤ depth) :
    s.Gains hours steps (fun t => gift t - s.storageLoss * depth) (v.lowered depth) := by
  refine ⟨h.charge_le, h.discharge_le,
    fun t ht => (sub_le_self _ hdepth).trans (h.level_le t ht), fun t ht => ?_⟩
  unfold StorageValues.lowered
  dsimp only
  rw [h.level_eq t ht]
  ring

theorem resized (h : s.Gains hours steps gift v) {size : Rat}
    (hcharge : ∀ t < steps, v.charge t ≤ s.speed * hours * size)
    (hdischarge : ∀ t < steps, v.discharge t ≤ s.speed * hours * size)
    (hlevel : ∀ t < steps, v.level t ≤ size) : s.Gains hours steps gift (v.resized size) :=
  ⟨hcharge, hdischarge, hlevel, h.level_eq⟩

end Gains

end Storage

/-! ## Operations of a whole -/

namespace Node

variable (n : Node Rat) (catalogue : Catalogue Rat) (m : Model Rat) (x y : Var → Rat) {a b : Rat}

/-- What a node does under parts of two assignments that make a whole is made of the same parts. -/
theorem operation_blend (hab : a + b = 1) :
    n.operation catalogue m (fun v => a * x v + b * y v) =
      (n.operation catalogue m x).blend a b (n.operation catalogue m y) := by
  have hwhole : ∀ q : Rat, q = a * q + b * q := fun q => by rw [← add_mul, hab, one_mul]
  have hin : n.inflowOf catalogue m (fun v => a * x v + b * y v) = fun t l =>
      a * n.inflowOf catalogue m x t l + b * n.inflowOf catalogue m y t l := by
    funext t l
    unfold inflowOf leafInflowAt
    cases l.neighbour with
    | some source => rfl
    | none =>
      cases n.role with
      | fixedInput flow => exact hwhole _
      | scalableInput factors =>
        dsimp only
        ring
      | fixedOutput _ _ | scalableOutput _ _ | generic _ => rfl
  have hout : n.outflowOf catalogue m (fun v => a * x v + b * y v) = fun t l =>
      a * n.outflowOf catalogue m x t l + b * n.outflowOf catalogue m y t l := by
    funext t l
    unfold outflowOf leafOutflowAt
    cases l.neighbour with
    | some target => rfl
    | none =>
      cases n.role with
      | fixedOutput inputs flow => exact hwhole _
      | _ => rfl
  unfold operation
  rw [hin, hout]
  rfl

end Node

/-! ## Networks -/

/-- An assignment meets all bounds and conditions of a network, except that the levels of the
storage of a node include what it is given in each time step. -/
structure FeasibleGiven (nodes : List (Node Rat)) (grid : Grid) (config : Config Rat) (n : Node Rat)
    (s : Storage Rat) (gift : Nat → Rat) (x : Var → Rat) : Prop where
  nonneg : ∀ i < (registry nodes grid.size).columns.size, 0 ≤ x ⟨i⟩
  others : ∀ m ∈ nodes, m.name ≠ n.name →
    m.Operates nodes config.catalogue grid.hours grid.size
      (m.operation config.catalogue (registry nodes grid.size) x)
  passes : n.Passes nodes config.catalogue grid.hours grid.size
    (n.operation config.catalogue (registry nodes grid.size) x)
  gains : s.Gains grid.hours grid.size gift ((registry nodes grid.size).storageValues x n.name)

section Given

variable {nodes : List (Node Rat)} {grid : Grid} {config : Config Rat} {n : Node Rat}
variable {s : Storage Rat} {gift gift' : Nat → Rat} {x y : Var → Rat}

/-- Parts of two assignments that make a whole are feasible with the parts of the gifts. -/
theorem FeasibleGiven.blend {a b : Rat} (ha : 0 ≤ a) (hb : 0 ≤ b) (hab : a + b = 1)
    (h : FeasibleGiven nodes grid config n s gift x)
    (h' : FeasibleGiven nodes grid config n s gift' y) :
    FeasibleGiven nodes grid config n s (fun t => a * gift t + b * gift' t)
      (fun v => a * x v + b * y v) := by
  refine ⟨fun i hi => ?_, fun m hm hname => ?_, ?_, h.gains.blend ha hb h'.gains⟩
  · exact add_nonneg (mul_nonneg ha (h.nonneg i hi)) (mul_nonneg hb (h'.nonneg i hi))
  · rw [m.operation_blend config.catalogue _ x y hab]
    exact (h.others m hm hname).blend ha hb (h'.others m hm hname)
  · rw [n.operation_blend config.catalogue _ x y hab]
    exact h.passes.blend ha hb h'.passes

/-- Without gifts it is the network itself. -/
theorem Compiled.feasibleGiven_zero_iff {cs : List NodeCommodities} {groups : List (Rows Rat)}
    {net : Network Rat} (hc : Compiled nodes grid config cs groups net)
    (hbuilt : ∀ m ∈ nodes, m.Built) (hn : n ∈ nodes) (hs : n.storage = some s) :
    FeasibleGiven nodes grid config n s (fun _ => 0) x ↔ net.model.program.Feasible x := by
  rw [hc.feasible_iff_operates hbuilt, hc.columns_eq]
  constructor
  · intro h
    refine ⟨fun v hv => h.nonneg v.index hv, fun m hm => ?_⟩
    by_cases hname : m.name = n.name
    · obtain rfl := List.inj_on_of_nodup_map hc.wired.names_nodup hm hn hname
      refine Node.operates_iff_passes.2 ⟨h.passes, fun s' hs' => ?_⟩
      obtain rfl : s = s' := Option.some.inj (hs.symm.trans hs')
      exact Storage.gains_zero_iff_cycle.1 h.gains
    · exact h.others m hm hname
  · rintro ⟨hbounds, hall⟩
    obtain ⟨hpasses, hcycle⟩ := Node.operates_iff_passes.1 (hall n hn)
    exact ⟨fun i hi => hbounds ⟨i⟩ hi, fun m hm _ => hall m hm, hpasses,
      Storage.gains_zero_iff_cycle.2 (hcycle s hs)⟩

end Given

/-! ## Deciding what is feasible -/

section Decidable

variable (nodes : List (Node Rat)) (catalogue : Catalogue Rat) (hours : Rat) (steps : Nat)

instance Storage.decidableFollows (s : Storage Rat) (v : StorageValues) (previous t : Nat) :
    Decidable (s.Follows hours v previous t) :=
  decidable_of_iff (v.charge t ≤ s.speed * hours * v.size ∧
      v.discharge t ≤ s.speed * hours * v.size ∧ v.level t ≤ v.size ∧
      v.level t = (1 - s.storageLoss) * v.level previous +
        (1 - s.chargingLoss) * v.charge t - v.discharge t)
    ⟨fun h => ⟨h.1, h.2.1, h.2.2.1, h.2.2.2⟩,
      fun h => ⟨h.charge_le, h.discharge_le, h.level_le, h.level_eq⟩⟩

instance Storage.decidableCycle (s : Storage Rat) (v : StorageValues) :
    Decidable (s.Cycle hours steps v) :=
  inferInstanceAs (Decidable (∀ t < steps, s.Follows hours v ((t + steps - 1) % steps) t))

instance Storage.decidableGains (s : Storage Rat) (gift : Nat → Rat) (v : StorageValues) :
    Decidable (s.Gains hours steps gift v) :=
  decidable_of_iff ((∀ t < steps, v.charge t ≤ s.speed * hours * v.size) ∧
      (∀ t < steps, v.discharge t ≤ s.speed * hours * v.size) ∧
      (∀ t < steps, v.level t ≤ v.size) ∧
      ∀ t < steps, v.level t = (1 - s.storageLoss) * v.level ((t + steps - 1) % steps) +
        (1 - s.chargingLoss) * v.charge t - v.discharge t + gift t)
    ⟨fun h => ⟨h.1, h.2.1, h.2.2.1, h.2.2.2⟩,
      fun h => ⟨h.charge_le, h.discharge_le, h.level_le, h.level_eq⟩⟩

instance Label.decidableInProportion (labels : List Label) (ratios : Keyed (Quantity Rat))
    (value : Label → Rat) : Decidable (Label.InProportion catalogue labels ratios value) :=
  inferInstanceAs (Decidable (∀ e ∈ ratios.entries, ∀ e' ∈ ratios.entries,
    Label.shareOf catalogue labels ratios value e = Label.shareOf catalogue labels ratios value e'))

instance Node.decidablePasses (n : Node Rat) (o : Operation) :
    Decidable (n.Passes nodes catalogue hours steps o) :=
  decidable_of_iff ((∀ output ∈ Node.outputNames nodes n, ∀ t < steps,
        Label.total (Node.outLabels nodes n) (fun l => l.commodity = output) (o.outflow t) +
            n.netCharge hours o t =
          n.factorTo nodes catalogue output *
            Label.total (Node.inLabels nodes n) (fun l => n.madeFrom output l.commodity)
              (o.inflow t)) ∧
      (∀ r ∈ n.inputProportions, ∀ t < steps,
        Label.InProportion catalogue (Node.inLabels nodes n) r (o.inflow t)) ∧
      (∀ r ∈ n.outputProportions, ∀ t < steps,
        Label.InProportion catalogue (Node.outLabels nodes n) r (o.outflow t)) ∧
      (n.hasSize = true → n.kind ≠ .scalableInput → ∀ t < steps,
        Label.total (Node.outLabels nodes n) (fun l => l.commodity = n.sizeName nodes)
          (o.outflow t) + n.chargeFlow hours o t ≤ o.size))
    ⟨fun h => ⟨h.1, h.2.1, h.2.2.1, h.2.2.2⟩,
      fun h => ⟨h.balanced, h.inputs, h.outputs, h.limited⟩⟩

instance Node.decidableOperates (n : Node Rat) (o : Operation) :
    Decidable (n.Operates nodes catalogue hours steps o) :=
  decidable_of_iff (n.Passes nodes catalogue hours steps o ∧
    ∀ s ∈ n.storage, s.Cycle hours steps o.storage) Node.operates_iff_passes.symm

instance decidableFeasibleGiven (grid : Grid) (config : Config Rat) (n : Node Rat)
    (s : Storage Rat) (gift : Nat → Rat) (x : Var → Rat) :
    Decidable (FeasibleGiven nodes grid config n s gift x) :=
  decidable_of_iff ((∀ i < (registry nodes grid.size).columns.size, 0 ≤ x ⟨i⟩) ∧
      (∀ m ∈ nodes, m.name ≠ n.name → m.Operates nodes config.catalogue grid.hours grid.size
        (m.operation config.catalogue (registry nodes grid.size) x)) ∧
      n.Passes nodes config.catalogue grid.hours grid.size
        (n.operation config.catalogue (registry nodes grid.size) x) ∧
      s.Gains grid.hours grid.size gift ((registry nodes grid.size).storageValues x n.name))
    ⟨fun h => ⟨h.1, h.2.1, h.2.2.1, h.2.2.2⟩,
      fun h => ⟨h.nonneg, h.others, h.passes, h.gains⟩⟩

end Decidable

end SupplyNet
