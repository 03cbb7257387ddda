import Mathlib
import SupplyNet.Proofs.Network.History
import SupplyNet.Proofs.Network.Restocked

/-!
Charging and discharging at once. A storage that loses some of what it charges gets rid of energy in
this way. With a use for more in the storage it would rather charge or discharge only, and have what
is lost otherwise; so it is done only where more in the storage would save nothing.
-/
set_option autoImplicit false

namespace SupplyNet

/-- An amount in one time step and nothing in the others. -/
def onlyAt (t : Nat) (amount : Rat) (u : Nat) : Rat := if u = t then amount else 0

/-- If the storage of a node were given some amount in a time step, less would have to be paid. -/
def GiftPays (nodes : List (Node Rat)) (grid : Grid) (config : Config Rat) (net : Network Rat)
    (n : Node Rat) (s : Storage Rat) (t : Nat) (x : Var → Rat) : Prop :=
  ∃ gift : Rat, 0 < gift ∧ ∃ y, FeasibleGiven nodes grid config n s (onlyAt t gift) y ∧
    net.model.objective.eval y < net.model.objective.eval x

/-- What is charged and discharged at once in one time step alone. -/
theorem StorageValues.Nonneg.onlyAt_both_mem {steps : Nat} {v : StorageValues} (h : v.Nonneg steps)
    (t : Nat) : ∀ u < steps, 0 ≤ onlyAt t (v.both t) u ∧ onlyAt t (v.both t) u ≤ v.charge u ∧
      onlyAt t (v.both t) u ≤ v.discharge u := by
  intro u hu
  unfold onlyAt
  split
  · next hut =>
    subst hut
    exact h.both_mem u hu
  · exact ⟨le_rfl, h.charge u hu, h.discharge u hu⟩

/-! ## Networks -/

section Compiled

variable {nodes : List (Node Rat)} {grid : Grid} {config : Config Rat} {cs : List NodeCommodities}
variable {groups : List (Rows Rat)} {net : Network Rat} {n : Node Rat} {s : Storage Rat}
variable {x y : Var → Rat} {t : Nat} {gift : Rat}

/-- Nothing that is feasible with a gift in a time step costs less than a minimal assignment that
charges and discharges at once in it. Of both there is so much in a whole that the gift makes up for
the loss that is spared, and this whole needs no gift. -/
theorem Compiled.minimal_le_given (hc : Compiled nodes grid config cs groups net)
    (hbuilt : ∀ m ∈ nodes, m.Built) (hn : n ∈ nodes) (hs : n.storage = some s)
    (hloss : 0 < s.chargingLoss) (hx : net.model.program.Minimal x) (hgift : 0 < gift)
    (hcharge : 0 < ((registry nodes grid.size).storageValues x n.name).charge t)
    (hdischarge : 0 < ((registry nodes grid.size).storageValues x n.name).discharge t)
    (hy : FeasibleGiven nodes grid config n s (onlyAt t gift) y) :
    net.model.objective.eval x ≤ net.model.objective.eval y := by
  have hx₀ := (hc.feasibleGiven_zero_iff hbuilt hn hs).2 hx.1
  have hnonneg := hx₀.nonneg_storage hc hn hs
  have hboth : 0 < ((registry nodes grid.size).storageValues x n.name).both t :=
    lt_min hcharge hdischarge
  obtain ⟨share, hpos, hlt, hshare⟩ := exists_share hgift (mul_pos hloss hboth)
  have hrest : 0 ≤ 1 - share := sub_nonneg.2 hlt.le
  have hz := hx₀.blend hrest hpos.le (sub_add_cancel 1 share) hy
  have hless := hnonneg.onlyAt_both_mem t
  have hstands := hnonneg.standsFor_netted_blend (hy.nonneg_storage hc hn hs) hrest hpos.le hless
  have hspared : ∀ u < grid.size, (0 : Rat) = (1 - share) * 0 + share * onlyAt t gift u -
      s.chargingLoss * ((1 - share) *
        onlyAt t (((registry nodes grid.size).storageValues x n.name).both t) u) := by
    intro u _
    unfold onlyAt
    split
    · linarith
    · ring
  obtain ⟨z, hfeasible, -, hcost⟩ := hc.exists_feasible_restocked hn hs hbuilt hz hstands rfl
    ((hz.gains.netted fun u hu => mul_nonneg hrest (hless u hu).1).congr_gift hspared)
  have hle : net.model.objective.eval x ≤ net.model.objective.eval z := hx.2 z hfeasible
  rw [hcost, net.model.objective.eval_blend (sub_add_cancel 1 share)] at hle
  exact le_of_mul_le_mul_left (by linarith) hpos

end Compiled

/-- A storage that loses some of what it charges does not charge and discharge at once in a minimal
assignment, unless more in the storage would save nothing. -/
theorem Network.never_both {nodes : List (Node Rat)} {grid : Grid} {config : Config Rat}
    {net : Network Rat} {n : Node Rat} {s : Storage Rat} {x : Var → Rat} {t : Nat}
    (hbuilt : ∀ m ∈ nodes, m.Built) (h : Network.build nodes grid config = .ok net) (hn : n ∈ nodes)
    (hs : n.storage = some s) (hloss : 0 < s.chargingLoss) (hx : net.model.program.Minimal x)
    (ht : t < grid.size) :
    (∀ y, FeasibleGiven nodes grid config n s (fun _ => 0) y ↔ net.model.program.Feasible y) ∧
    (GiftPays nodes grid config net n s t x →
      (net.model.storageValues x n.name).charge t = 0 ∨
        (net.model.storageValues x n.name).discharge t = 0) := by
  obtain ⟨cs, groups, hc⟩ := Network.build_eq_ok_iff.1 h
  have hzero := fun y => hc.feasibleGiven_zero_iff (x := y) hbuilt hn hs
  refine ⟨hzero, fun ⟨gift, hgift, y, hy, hcheaper⟩ => ?_⟩
  have hnonneg := ((hzero x).2 hx.1).nonneg_storage hc hn hs
  rw [hc.storageValues_eq]
  by_contra hboth
  obtain ⟨hcharge, hdischarge⟩ := not_or.1 hboth
  exact hcheaper.not_ge (hc.minimal_le_given hbuilt hn hs hloss hx hgift
    ((hnonneg.charge t ht).lt_of_ne' hcharge) ((hnonneg.discharge t ht).lt_of_ne' hdischarge) hy)

/-! ## A lull -/

/-- The battery charges what is needed in the second hour, and a tenth more for the loss. -/
def lullValues : Array Rat := #[19 / 9, 20 / 9, 1, 0, 10 / 9, 0, 0, 1, 1, 1]

/-- What is needed in the second hour is given in the first. -/
def lullGiven : Array Rat := #[1, 2, 1, 0, 0, 0, 0, 1, 1, 1]

theorem exists_lullNetwork :
    ∃ net, Network.build (builtNodes (lullDrafts windBattery)) windGrid .standard = .ok net :=
  exists_of_isOk (by decide +kernel)

/-- More in the battery would save costs, so it does not charge and discharge at once. -/
theorem netted_lullNetwork :
    ∃ net, Network.build (builtNodes (lullDrafts windBattery)) windGrid .standard = .ok net ∧
      (∀ m ∈ builtNodes (lullDrafts windBattery), m.Built) ∧
      ∃ n ∈ builtNodes (lullDrafts windBattery), n.storage = some windBattery ∧
        0 < windBattery.chargingLoss ∧ net.model.program.Minimal (assignment lullValues) ∧
        0 < windGrid.size ∧ GiftPays (builtNodes (lullDrafts windBattery)) windGrid .standard net n
          windBattery 0 (assignment lullValues) ∧
        ((net.model.storageValues (assignment lullValues) n.name).charge 0 = 0 ∨
          (net.model.storageValues (assignment lullValues) n.name).discharge 0 = 0) := by
  obtain ⟨net, h⟩ := exists_lullNetwork
  obtain ⟨n, hn, hname, hs⟩ := exists_builtNode (d := (lullDrafts windBattery)[0])
    (List.getElem_mem _) (by decide +kernel)
  have hbuilt : ∀ m ∈ builtNodes (lullDrafts windBattery), m.Built := fun _ hm => built_of_mem hm
  have hminimal : net.model.program.Minimal (assignment lullValues) :=
    Network.minimal_of_all [-1, -10 / 3, -2, 0, 0, -10 / 3, 0, 0, 0, -10 / 3, -1, -10 / 3] h
      (by decide +kernel) (by decide +kernel)
  have hgiven : ∀ m ∈ builtNodes (lullDrafts windBattery), m.name = "wind" →
      FeasibleGiven (builtNodes (lullDrafts windBattery)) windGrid .standard m windBattery
        (onlyAt 0 1) (assignment lullGiven) := by
    decide +kernel
  have hcheaper : (Network.build (builtNodes (lullDrafts windBattery)) windGrid
      .standard).toOption.all (fun net => net.model.objective.eval (assignment lullGiven) <
        net.model.objective.eval (assignment lullValues)) = true := by
    decide +kernel
  rw [h] at hcheaper
  have hpays : GiftPays (builtNodes (lullDrafts windBattery)) windGrid .standard net n windBattery 0
      (assignment lullValues) :=
    ⟨1, one_pos, assignment lullGiven, hgiven n hn hname, of_decide_eq_true hcheaper⟩
  have hloss : 0 < windBattery.chargingLoss := by decide +kernel
  obtain ⟨-, hnever⟩ := Network.never_both hbuilt h hn hs hloss hminimal windGrid.size_pos
  exact ⟨net, h, hbuilt, n, hn, hs, hloss, hminimal, windGrid.size_pos, hpays, hnever hpays⟩

/-! ## Too much sun -/

theorem representable_first_hour :
    (Time.stampAt (.startOfYear 2020) Grid.hour (1 - 1)).Representable := by
  decide

/-- The first hour of a year. -/
def hourGrid : Grid :=
  ⟨.startOfYear 2020, Grid.hour, 1, Grid.standard.step_ge, Nat.one_pos, representable_first_hour⟩

/-- It costs nothing and loses half of what it charges. -/
def leakyBattery : Storage Rat :=
  ⟨.plain 0, 1, 0, 1 / 2, windBattery.storageLoss_mem, half_mem, one_mem, lt_irrefl 0⟩

/-- Twice as much sun as a town needs, and a dump for the rest that charges a fee. -/
def sunnyDrafts : List (Draft Rat) :=
  [{ name := "sun", role := .fixedInput (.constant hourGrid 2) },
    { name := "hub", role := .generic ⟨["sun"], .single "electricity"⟩,
      storage := some leakyBattery },
    { name := "town",
      role := .fixedOutput ⟨["hub"], .single "electricity"⟩ (.constant hourGrid 1) },
    { name := "dump", role := .generic ⟨["hub"], .single "electricity"⟩,
      inputFlowCosts := some (.plain 10) }]

/-- Two units are charged and one is discharged. -/
def sunnyValues : Array Rat := #[2, 2, 0, 2, 1, 1, 0, 0]

/-- It is cheaper to lose the rest in the battery, which charges and discharges at once. -/
theorem both_sunnyNetwork :
    ∃ net, Network.build (builtNodes sunnyDrafts) hourGrid .standard = .ok net ∧
      (∀ m ∈ builtNodes sunnyDrafts, m.Built) ∧
      ∃ n ∈ builtNodes sunnyDrafts, n.storage = some leakyBattery ∧
        0 < leakyBattery.chargingLoss ∧ net.model.program.Minimal (assignment sunnyValues) ∧
        0 < hourGrid.size ∧
        (net.model.storageValues (assignment sunnyValues) n.name).charge 0 = 2 ∧
        (net.model.storageValues (assignment sunnyValues) n.name).discharge 0 = 1 := by
  obtain ⟨net, h⟩ : ∃ net, Network.build (builtNodes sunnyDrafts) hourGrid .standard = .ok net :=
    exists_of_isOk (by decide +kernel)
  obtain ⟨n, hn, hname, hs⟩ := exists_builtNode (d := sunnyDrafts[1]) (List.getElem_mem _)
    (by decide +kernel)
  have hminimal : net.model.program.Minimal (assignment sunnyValues) :=
    Network.minimal_of_all [] h (by decide +kernel) (by decide +kernel)
  have hvalues : (Network.build (builtNodes sunnyDrafts) hourGrid .standard).toOption.all (fun net =>
      (net.model.storageValues (assignment sunnyValues) "hub").charge 0 = 2 ∧
        (net.model.storageValues (assignment sunnyValues) "hub").discharge 0 = 1) = true := by
    decide +kernel
  rw [h] at hvalues
  have hname : n.name = "hub" := hname
  exact ⟨net, h, fun _ hm => built_of_mem hm, n, hn, hs, half_pos one_pos, hminimal,
    hourGrid.size_pos, hname ▸ of_decide_eq_true hvalues⟩

end SupplyNet
