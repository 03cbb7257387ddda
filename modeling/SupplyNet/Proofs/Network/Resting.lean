import Mathlib
import SupplyNet.Proofs.Network.Assigned
import SupplyNet.Proofs.Network.Enumeration
import SupplyNet.Proofs.Network.History

/-!
Storages at rest. Where nothing is charged or discharged, a level balance takes the loss of a storage
once from the level before, however long the time step is, so that a step of several hours loses as
much as one hour.
-/
set_option autoImplicit false

namespace SupplyNet

/-- The levels before and in a time step in which nothing is charged or discharged. -/
structure StorageValues.AtRest (v : StorageValues) (previous t : Nat) (x y : Rat) : Prop where
  before : v.level previous = x
  after : v.level t = y
  charge : v.charge t = 0
  discharge : v.discharge t = 0

/-- The level balance of a node in a time step lets the storage rest: it holds whenever nothing is
charged or discharged and one level follows on the other. -/
def Node.Rests (nodes : List (Node Rat)) (grid : Grid) (config : Config Rat) (net : Network Rat)
    (n : Node Rat) (t : Nat) (x y : Rat) : Prop :=
  ∃ clause ∈ n.clauses nodes config.catalogue grid.hours grid.size,
    clause.subject = .levelBalance ∧ clause.step = t ∧
      ∃ c ∈ net.model.constraints, c.States (n.operation config.catalogue net.model) clause ∧
        ∀ a : Var → Rat, (net.model.storageValues a n.name).AtRest
          ((t + grid.size - 1) % grid.size) t x y → c.Holds a

/-- One level leads to another one in so many steps. -/
def Leads (step : Rat → Rat → Prop) (k : Nat) (x y : Rat) : Prop :=
  ∃ z : Nat → Rat, z 0 = x ∧ z k = y ∧ (∀ i ≤ k, 0 ≤ z i) ∧ ∀ i < k, step (z i) (z (i + 1))

/-! ## Steps that keep a share -/

section Leads

variable {step : Rat → Rat → Prop} {q x y : Rat} {k : Nat}

/-- If each step keeps a share, the steps together keep its power. -/
theorem leads_iff (hstep : ∀ x y, step x y ↔ y = q * x) (hq : 0 ≤ q) (hx : 0 ≤ x) :
    Leads step k x y ↔ y = q ^ k * x := by
  constructor
  · rintro ⟨z, rfl, rfl, -, hz⟩
    have hpower : ∀ i ≤ k, z i = q ^ i * z 0 := by
      intro i
      induction i with
      | zero => exact fun _ => by rw [pow_zero, one_mul]
      | succ i ih =>
        intro hi
        rw [(hstep _ _).1 (hz i hi), ih (Nat.le_of_succ_le hi), pow_succ]
        ring
    exact hpower k le_rfl
  · rintro rfl
    refine ⟨fun i => q ^ i * x, by simp, rfl, fun i _ => mul_nonneg (pow_nonneg hq i) hx,
      fun i _ => (hstep _ _).2 ?_⟩
    ring

/-- A share is its own power only if there is one step or nothing is lost. -/
theorem forall_eq_mul_iff (hq : 0 < q) (hk : 0 < k) :
    (∀ x y : Rat, 0 ≤ x → 0 ≤ y → (y = q * x ↔ y = q ^ k * x)) ↔ k = 1 ∨ q = 1 := by
  constructor
  · intro h
    have hpower : q * 1 = q ^ k * 1 := (h 1 (q * 1) zero_le_one (by linarith)).1 rfl
    obtain ⟨j, rfl⟩ : ∃ j, k = j + 1 := ⟨k - 1, by omega⟩
    have hone : q ^ j = 1 := by
      refine mul_right_cancel₀ hq.ne' ?_
      rw [← pow_succ]
      linarith
    by_cases hj : j = 0
    · exact .inl (by rw [hj])
    · exact .inr ((pow_eq_one_iff_of_nonneg hq.le hj).1 hone)
  · rintro (rfl | rfl) x y - -
    · rw [pow_one]
    · rw [one_pow]

end Leads

/-! ## The level balance of a storage at rest -/

namespace Node

section Clauses

variable {nodes : List (Node Rat)} {catalogue : Catalogue Rat} {hours : Rat} {steps : Nat}
variable {n : Node Rat} {s : Storage Rat} {clause : Clause}

theorem mem_levelBalance (hclause : clause ∈ n.clauses nodes catalogue hours steps)
    (hsubject : clause.subject = .levelBalance) (hstorage : n.storage = some s) :
    clause = n.levelBalanceClause steps s clause.step := by
  obtain ⟨l, hl, hmem⟩ := exists_section hclause
  obtain rfl : l = n.storage.elim [] (n.storageClauses hours steps) := by
    simpa [hsubject, Subject.family, sections] using hl
  rw [hstorage] at hmem
  obtain ⟨t, -, hmem⟩ := List.mem_flatMap.1 hmem
  simp only [List.mem_cons, List.not_mem_nil, or_false] at hmem
  rcases hmem with rfl | rfl | rfl | rfl <;> first | rfl | cases hsubject

theorem levelBalanceClause_mem (hstorage : n.storage = some s) {t : Nat} (ht : t < steps) :
    n.levelBalanceClause steps s t ∈ n.clauses nodes catalogue hours steps := by
  refine List.mem_append_right _ (List.mem_append_left _ ?_)
  rw [hstorage]
  exact List.mem_flatMap.2 ⟨t, List.mem_range.2 ht, by simp⟩

end Clauses

end Node

/-- The levels of storages at rest, one in a time step and another one in all others. -/
def VariableKey.restingAt (t : Nat) (x y : Rat) : VariableKey → Option Nat → Rat
  | .level _, some u => if u = t then y else x
  | _, _ => 0

section Network

variable {nodes : List (Node Rat)} {grid : Grid} {config : Config Rat} {net : Network Rat}
variable {cs : List NodeCommodities} {groups : List (Rows Rat)} {n : Node Rat} {s : Storage Rat}
variable {t : Nat} {x y : Rat}

/-- Every two levels can be those of a storage at rest, as there are two time steps. -/
theorem exists_atRest (hnames : ((variableKeys nodes).map (·.name)).Nodup) (hn : n ∈ nodes)
    (hstorage : n.storage.isSome = true) {steps : Nat} (hsteps : 2 ≤ steps) (ht : t < steps)
    (x y : Rat) : ∃ a, ((registry nodes steps).storageValues a n.name).AtRest
      ((t + steps - 1) % steps) t x y := by
  obtain ⟨-, hlevel, hcharge, hdischarge⟩ := stored_mem_variableKeys hn hstorage
  have hprevious : (t + steps - 1) % steps < steps := Nat.mod_lt _ (by omega)
  have hne : (t + steps - 1) % steps ≠ t := by
    cases t with
    | zero =>
      rw [previous_zero ht]
      omega
    | succ t =>
      rw [previous_succ (Nat.lt_of_succ_lt ht)]
      omega
  let values := VariableKey.restingAt t x y
  refine ⟨(registry nodes steps).assigned nodes values, ?_, ?_, ?_, ?_⟩
  · exact (assigned_columnOf values hnames hlevel rfl hprevious).trans (if_neg hne)
  · exact (assigned_columnOf values hnames hlevel rfl ht).trans (if_pos rfl)
  · exact assigned_columnOf values hnames hcharge rfl ht
  · exact assigned_columnOf values hnames hdischarge rfl ht

/-- At rest, a level balance takes the loss once, whatever the length of a time step. -/
theorem Compiled.rests_iff (hc : Compiled nodes grid config cs groups net)
    (hbuilt : ∀ n ∈ nodes, n.Built) (hn : n ∈ nodes) (hstorage : n.storage = some s)
    (hsize : 2 ≤ grid.size) (ht : t < grid.size) :
    n.Rests nodes grid config net t x y ↔ y = (1 - s.storageLoss) * x := by
  have hholds : ∀ {clause : Clause} {c : Constraint Rat} {a : Var → Rat},
      clause ∈ n.clauses nodes config.catalogue grid.hours grid.size →
      clause.subject = .levelBalance → clause.step = t →
      c.States (n.operation config.catalogue net.model) clause →
      (net.model.storageValues a n.name).AtRest ((t + grid.size - 1) % grid.size) t x y →
      (c.Holds a ↔ y = (1 - s.storageLoss) * x) := by
    intro clause c a hclause hsubject hstep hstates hrest
    rw [hstates.holds_iff, Node.mem_levelBalance hclause hsubject hstorage, hstep]
    change (net.model.storageValues a n.name).level t -
      (1 - s.storageLoss) *
        (net.model.storageValues a n.name).level ((t + grid.size - 1) % grid.size) -
      (1 - s.chargingLoss) * (net.model.storageValues a n.name).charge t +
      (net.model.storageValues a n.name).discharge t = 0 ↔ _
    rw [hrest.before, hrest.after, hrest.charge, hrest.discharge, mul_zero, sub_zero, add_zero,
      sub_eq_zero]
  constructor
  · rintro ⟨clause, hclause, hsubject, hstep, c, -, hstates, hall⟩
    obtain ⟨a, ha⟩ := exists_atRest hc.names_nodup hn (by rw [hstorage]; rfl) hsize ht x y
    have hrest :
        (net.model.storageValues a n.name).AtRest ((t + grid.size - 1) % grid.size) t x y := by
      rw [hc.model]
      exact ha
    exact (hholds hclause hsubject hstep hstates hrest).1 (hall a hrest)
  · intro hy
    have hclause : n.levelBalanceClause grid.size s t ∈
        n.clauses nodes config.catalogue grid.hours grid.size :=
      Node.levelBalanceClause_mem hstorage ht
    obtain ⟨c, hmem, hstates⟩ := hc.exists_states hbuilt hn hclause
    exact ⟨_, hclause, rfl, rfl, c, hmem, hstates, fun a hrest =>
      (hholds hclause rfl rfl hstates hrest).2 hy⟩

variable {nodes' : List (Node Rat)} {grid' : Grid} {config' : Config Rat} {net' : Network Rat}
variable {cs' : List NodeCommodities} {groups' : List (Rows Rat)} {n' : Node Rat} {t' k : Nat}

/-- In `k` time steps a storage at rest loses `k` times. -/
theorem Compiled.leads_iff (hc : Compiled nodes grid config cs groups net)
    (hbuilt : ∀ n ∈ nodes, n.Built) (hn : n ∈ nodes) (hstorage : n.storage = some s)
    (hsize : 2 ≤ grid.size) (ht : t < grid.size) (hx : 0 ≤ x) :
    Leads (n.Rests nodes grid config net t) k x y ↔ y = (1 - s.storageLoss) ^ k * x :=
  SupplyNet.leads_iff (fun _ _ => hc.rests_iff hbuilt hn hstorage hsize ht)
    (sub_nonneg.2 s.storageLoss_mem.2.le) hx

/-- A storage at rest loses its share once in a time step of `k` hours, and `k` times in as many time
steps of an hour. These agree exactly if the long time step is an hour or if nothing is lost. -/
theorem Network.rests_iff_leads (hbuilt : ∀ n ∈ nodes, n.Built) (hbuilt' : ∀ n ∈ nodes', n.Built)
    (h : Network.build nodes grid config = .ok net)
    (h' : Network.build nodes' grid' config' = .ok net')
    (hk : 0 < k) (hstep : grid.step = k * Grid.hour) (hstep' : grid'.step = Grid.hour)
    (hsize : 2 ≤ grid.size) (hsize' : 2 ≤ grid'.size) (hn : n ∈ nodes) (hn' : n' ∈ nodes')
    (hstorage : n.storage = some s) (hstorage' : n'.storage = some s)
    (ht : t < grid.size) (ht' : t' < grid'.size) :
    (∀ x y, 0 ≤ x → (n.Rests nodes grid config net t x y ↔ y = (1 - s.storageLoss) * x)) ∧
    (∀ x y, 0 ≤ x → (Leads (n'.Rests nodes' grid' config' net' t') k x y ↔
      y = (1 - s.storageLoss) ^ k * x)) ∧
    ((∀ x y, 0 ≤ x → 0 ≤ y → (n.Rests nodes grid config net t x y ↔
        Leads (n'.Rests nodes' grid' config' net' t') k x y)) ↔
      grid.step = grid'.step ∨ s.storageLoss = 0) := by
  obtain ⟨cs, groups, hc⟩ := Network.build_eq_ok_iff.1 h
  obtain ⟨cs', groups', hc'⟩ := Network.build_eq_ok_iff.1 h'
  have hrests := fun x y => hc.rests_iff (x := x) (y := y) hbuilt hn hstorage hsize ht
  have hleads := fun x y (hx : 0 ≤ x) =>
    hc'.leads_iff (y := y) (k := k) hbuilt' hn' hstorage' hsize' ht' hx
  refine ⟨fun x y _ => hrests x y, hleads, ?_⟩
  have hhour : grid.step = grid'.step ↔ k = 1 := by
    rw [hstep, hstep']
    unfold Grid.hour Stamp.nanosPerSecond
    omega
  have hloss : s.storageLoss = 0 ↔ 1 - s.storageLoss = 1 := by
    constructor <;> intro h <;> linarith
  rw [hhour, hloss, ← forall_eq_mul_iff (sub_pos.2 s.storageLoss_mem.2) hk]
  refine forall₂_congr fun x y => forall₂_congr fun hx _ => ?_
  rw [hrests, hleads x y hx]

end Network

/-! ## A tank that loses half -/

/-- A single node with a storage that loses half of its level in an hour. -/
def tankDrafts : List (Draft Rat) :=
  [{ name := "tank", role := .generic ⟨[], .single "electricity"⟩, storage := some slowBattery }]

theorem representable_third_hour :
    (Time.stampAt (.startOfYear 2020) (2 * Grid.hour) (2 - 1)).Representable := by
  decide

/-- Twice two hours of a year. -/
def doubleHours : Grid :=
  ⟨.startOfYear 2020, 2 * Grid.hour, 2, by decide, Nat.two_pos, representable_third_hour⟩

theorem exists_tankNetworks : ∃ net net',
    Network.build (builtNodes tankDrafts) doubleHours .standard = .ok net ∧
      Network.build (builtNodes tankDrafts) windGrid .standard = .ok net' := by
  obtain ⟨net, h⟩ : ∃ net, Network.build (builtNodes tankDrafts) doubleHours .standard = .ok net :=
    exists_of_isOk (by decide +kernel)
  obtain ⟨net', h'⟩ : ∃ net, Network.build (builtNodes tankDrafts) windGrid .standard = .ok net :=
    exists_of_isOk (by decide +kernel)
  exact ⟨net, net', h, h'⟩

theorem exists_tank : ∃ n ∈ builtNodes tankDrafts, n.storage = some slowBattery := by
  obtain ⟨n, hn, -, hstorage⟩ : ∃ n ∈ builtNodes tankDrafts, n.name = "tank" ∧
      n.storage = some slowBattery := exists_builtNode List.mem_cons_self (by decide +kernel)
  exact ⟨n, hn, hstorage⟩

theorem slowBattery_kept : 1 - slowBattery.storageLoss = 1 / 2 := by
  norm_num [slowBattery]

/-- In two hours the tank keeps a half, or a quarter. -/
theorem rests_tankNetworks : ∃ net net',
    Network.build (builtNodes tankDrafts) doubleHours .standard = .ok net ∧
      Network.build (builtNodes tankDrafts) windGrid .standard = .ok net' ∧
      ∃ n ∈ builtNodes tankDrafts, ∀ x y : Rat, 0 ≤ x →
        (n.Rests (builtNodes tankDrafts) doubleHours .standard net 0 x y ↔ y = 1 / 2 * x) ∧
        (Leads (n.Rests (builtNodes tankDrafts) windGrid .standard net' 0) 2 x y ↔
          y = (1 / 2) ^ 2 * x) := by
  obtain ⟨net, net', h, h'⟩ := exists_tankNetworks
  obtain ⟨n, hn, hstorage⟩ := exists_tank
  have hbuilt : ∀ n ∈ builtNodes tankDrafts, n.Built := fun _ hn => built_of_mem hn
  obtain ⟨hrests, hleads, -⟩ := Network.rests_iff_leads hbuilt hbuilt h h' Nat.two_pos rfl rfl le_rfl
    le_rfl hn hn hstorage hstorage doubleHours.size_pos windGrid.size_pos
  rw [slowBattery_kept] at hrests hleads
  exact ⟨net, net', h, h', n, hn, fun x y hx => ⟨hrests x y hx, hleads x y hx⟩⟩

/-- A step of two hours takes a level of two to one, which two steps of an hour do not. -/
theorem rests_not_leads_tankNetworks : ∃ net net',
    Network.build (builtNodes tankDrafts) doubleHours .standard = .ok net ∧
      Network.build (builtNodes tankDrafts) windGrid .standard = .ok net' ∧
      doubleHours.step = 2 * Grid.hour ∧ windGrid.step = Grid.hour ∧
      ∃ n ∈ builtNodes tankDrafts,
        n.Rests (builtNodes tankDrafts) doubleHours .standard net 0 2 1 ∧
        ∀ t < windGrid.size,
          ¬Leads (n.Rests (builtNodes tankDrafts) windGrid .standard net' t) 2 2 1 := by
  obtain ⟨net, net', h, h'⟩ := exists_tankNetworks
  obtain ⟨n, hn, hstorage⟩ := exists_tank
  have hbuilt : ∀ n ∈ builtNodes tankDrafts, n.Built := fun _ hn => built_of_mem hn
  obtain ⟨cs, groups, hc⟩ := Network.build_eq_ok_iff.1 h
  obtain ⟨cs', groups', hc'⟩ := Network.build_eq_ok_iff.1 h'
  refine ⟨net, net', h, h', rfl, rfl, n, hn, ?_, fun t ht => ?_⟩
  · rw [hc.rests_iff hbuilt hn hstorage le_rfl Nat.two_pos, slowBattery_kept]
    norm_num
  · rw [hc'.leads_iff hbuilt hn hstorage le_rfl ht zero_le_two, slowBattery_kept]
    norm_num

end SupplyNet
