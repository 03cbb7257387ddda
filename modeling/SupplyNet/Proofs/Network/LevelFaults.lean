import Mathlib
import SupplyNet.Network.Optimum
import SupplyNet.Proofs.Network.Columns
import SupplyNet.Proofs.Network.Streams
import SupplyNet.Proofs.Scalar.Ordered

/-!
Faults of levels. A storage that costs anything has to be empty in some time step and full in some
time step, up to a leeway that grows with its size. Of the storages that are not, the check of the
levels reports the first one, with its least level if it is never empty, and otherwise with its
greatest one.
-/
set_option autoImplicit false

namespace SupplyNet

variable {K : Type} [Scalar K]

/-- The solved size of a storage, and its solved level in each time step. -/
structure Filling (K : Type) where
  size : K
  level : Nat → K

def Model.filling (m : Model K) (s : Solution K) (node : String) : Filling K :=
  ⟨s.valueOf (m.scalarOf (.storageSize node)), fun t => s.valueOf (m.columnOf (.level node) t)⟩

namespace Filling

/-- How far levels may be from the ends. -/
def leeway (tolerance : K) (v : Filling K) : K := tolerance * Scalar.greater v.size 1

def Least (v : Filling K) (steps : Nat) (x : K) : Prop :=
  (∃ t < steps, v.level t = x) ∧ ∀ t < steps, x ≤ v.level t

def Greatest (v : Filling K) (steps : Nat) (x : K) : Prop :=
  (∃ t < steps, v.level t = x) ∧ ∀ t < steps, v.level t ≤ x

/-- Some level is close enough to zero, and some level is close enough to the size. -/
structure Plausible (tolerance : K) (steps : Nat) (v : Filling K) : Prop where
  emptied : ∃ t < steps, v.level t ≤ v.leeway tolerance
  filled : ∃ t < steps, v.size - v.leeway tolerance ≤ v.level t

/-- What is to be reported of the storage of a node: that it is never empty, with its least level,
or if it is, that it is never full, with its greatest one. -/
inductive Fault (tolerance : K) (steps : Nat) (node : String) (v : Filling K) : LevelError K → Prop
  | neverEmpty {least : K} (hleast : v.Least steps least) (hlow : v.leeway tolerance < least) :
      Fault tolerance steps node v (.neverEmpty node least v.size)
  | neverFull {greatest : K} (hemptied : ∃ t < steps, v.level t ≤ v.leeway tolerance)
      (hgreatest : v.Greatest steps greatest) (hhigh : greatest < v.size - v.leeway tolerance) :
      Fault tolerance steps node v (.neverFull node greatest v.size)

/-- The storage of a node is plausible if it has one that costs anything. -/
def Suits (tolerance : K) (steps : Nat) (n : Node K) (v : Filling K) : Prop :=
  ∀ s, n.storage = some s → 0 < s.costs.magnitude → v.Plausible tolerance steps

section Ordered

variable [Scalar.Ordered K] {tolerance : K} {steps : Nat} {v : Filling K}

open Scalar (isFinite unordered)
open Scalar.Ordered (not_lt of_isFinite)

theorem unordered_leeway (htolerance : isFinite tolerance = true) (hsize : isFinite v.size = true) :
    unordered (v.leeway tolerance) = false :=
  Scalar.Ordered.mul htolerance
    (Scalar.Ordered.isFinite_greater hsize Scalar.Ordered.isFinite_one)

/-- A storage with a fault is not plausible. -/
theorem Fault.not_plausible {node : String} {fault : LevelError K}
    (h : v.Fault tolerance steps node fault) (htolerance : isFinite tolerance = true)
    (hsize : isFinite v.size = true) (hlevel : ∀ t < steps, isFinite (v.level t) = true) :
    ¬v.Plausible tolerance steps := by
  have hleeway := unordered_leeway htolerance hsize
  rintro ⟨⟨t, ht, hlow⟩, u, hu, hhigh⟩
  cases h with
  | neverEmpty hleast hlow' =>
    obtain ⟨⟨t', ht', rfl⟩, hall⟩ := hleast
    exact (not_lt hleeway (of_isFinite (hlevel _ ht'))).2 (Scalar.Ordered.le_trans (hall t ht) hlow)
      hlow'
  | neverFull hemptied hgreatest hhigh' =>
    obtain ⟨⟨t', ht', rfl⟩, hall⟩ := hgreatest
    exact (not_lt (of_isFinite (hlevel _ ht')) (Scalar.Ordered.sub hsize hleeway)).2
      (Scalar.Ordered.le_trans hhigh (hall u hu)) hhigh'

/-- The extremes tell whether levels are plausible, and if not, what their fault is. -/
theorem plausible_or_fault (node : String) {least greatest : K}
    (hleast : v.Least steps least) (hgreatest : v.Greatest steps greatest)
    (htolerance : isFinite tolerance = true) (hsize : isFinite v.size = true)
    (hlevel : ∀ t < steps, isFinite (v.level t) = true) :
    let fault? : Option (LevelError K) :=
      if v.leeway tolerance < least then some (.neverEmpty node least v.size)
      else if greatest < v.size - v.leeway tolerance then some (.neverFull node greatest v.size)
      else none
    fault? = none ∧ v.Plausible tolerance steps ∨
      ∃ fault, fault? = some fault ∧ v.Fault tolerance steps node fault := by
  have hleeway := unordered_leeway htolerance hsize
  have hemptied : ¬v.leeway tolerance < least → ∃ t < steps, v.level t ≤ v.leeway tolerance := by
    intro hlow
    obtain ⟨⟨t, ht, rfl⟩, -⟩ := hleast
    exact ⟨t, ht, (not_lt hleeway (of_isFinite (hlevel t ht))).1 hlow⟩
  intro fault?
  by_cases hlow : v.leeway tolerance < least
  · exact Or.inr ⟨_, if_pos hlow, .neverEmpty hleast hlow⟩
  by_cases hhigh : greatest < v.size - v.leeway tolerance
  · exact Or.inr ⟨_, (if_neg hlow).trans (if_pos hhigh),
      .neverFull (hemptied hlow) hgreatest hhigh⟩
  refine Or.inl ⟨(if_neg hlow).trans (if_neg hhigh), hemptied hlow, ?_⟩
  obtain ⟨⟨t, ht, rfl⟩, -⟩ := hgreatest
  exact ⟨t, ht, (not_lt (of_isFinite (hlevel t ht)) (Scalar.Ordered.sub hsize hleeway)).1 hhigh⟩

end Ordered

end Filling

/-- The extremes of some numbers are among them. -/
theorem exists_extremes [Scalar.Ordered K] {l : List K} (hl : l ≠ [])
    (h : ∀ a ∈ l, Scalar.unordered a = false) :
    ∃ least ∈ l, ∃ greatest ∈ l, Network.extremes? l = some (least, greatest) ∧
      (∀ a ∈ l, least ≤ a) ∧ ∀ a ∈ l, a ≤ greatest := by
  cases l with
  | nil => exact absurd rfl hl
  | cons a r =>
    obtain ⟨hleast, hle⟩ := Scalar.Ordered.foldl_lesser h
    obtain ⟨hgreatest, hge⟩ := Scalar.Ordered.foldl_greater h
    exact ⟨_, hleast, _, hgreatest, rfl, hle, hge⟩

theorem Solution.isFinite_valueOf [Scalar.Ordered K] {s : Solution K}
    (h : ∀ x ∈ s.values, Scalar.isFinite x = true) (v : Var) :
    Scalar.isFinite (s.valueOf v) = true := by
  unfold valueOf assignment
  cases hv : s.values[v.index]? with
  | none => exact Scalar.Ordered.isFinite_zero
  | some x => exact h x (Array.mem_of_getElem? hv)

/-! ## One storage -/

section Registry

variable {nodes : List (Node K)} {catalogue : Catalogue K} {n : Node K} {c : NodeCommodities}
variable {f : NodeFlows K} {steps : Nat} {tolerance : K} {solution : Solution K}
variable (hnames : ((variableKeys nodes).map (·.name)).Nodup)

include hnames

theorem map_valueOf_seriesOf {k : VariableKey} (hk : k ∈ variableKeys nodes)
    (hs : k.steps? steps = some steps) :
    ((registry nodes steps).seriesOf k).toList.map solution.valueOf =
      (List.range steps).map fun t => solution.valueOf ((registry nodes steps).columnOf k t) := by
  have hsize := size_seriesOf hnames hk hs
  refine List.ext_getElem (by simp [hsize]) fun t ht ht' => ?_
  have hlt : t < steps := by simpa using ht'
  obtain ⟨_, hget⟩ := Array.getElem?_eq_some_iff.1 (getElem?_seriesOf hnames hk hs hlt)
  simp only [List.getElem_map, Array.getElem_toList, List.getElem_range, hget]

/-- The check of a storage that costs anything compares the extremes of its levels with the ends. -/
theorem levelFault?_eq {s : Storage K} {least greatest : K} (hn : n ∈ nodes)
    (hstorage : n.storage = some s) (hcosts : ¬s.costs.magnitude ≤ 0)
    (h : n.Bound catalogue (outlets nodes n.name) (registry nodes steps) c f)
    (hextremes : Network.extremes? ((List.range steps).map
      ((registry nodes steps).filling solution n.name).level) = some (least, greatest)) :
    Network.levelFault? tolerance solution n f =
      let v := (registry nodes steps).filling solution n.name
      if v.leeway tolerance < least then some (.neverEmpty n.name least v.size)
      else if greatest < v.size - v.leeway tolerance then some (.neverFull n.name greatest v.size)
      else none := by
  have hsome : n.storage.isSome = true := by rw [hstorage]; rfl
  obtain ⟨-, hlevel, -, -⟩ := stored_mem_variableKeys hn hsome
  have hf : f.storage = some ((registry nodes steps).storageOf n.name) := by
    rw [h.storage, Node.storageIn, if_pos hsome]
  have hlevels : ((registry nodes steps).seriesOf (.level n.name)).toList.map solution.valueOf =
      (List.range steps).map ((registry nodes steps).filling solution n.name).level :=
    map_valueOf_seriesOf hnames hlevel rfl
  unfold Network.levelFault?
  rw [hstorage, hf]
  simp only [Model.storageOf, Option.bind_eq_bind, Option.bind_some, hlevels, hextremes, guard,
    hcosts, not_false_eq_true, if_true]
  rfl

variable [Scalar.Ordered K] (hn : n ∈ nodes) (hsteps : 0 < steps)
variable (hcosts : ∀ s, n.storage = some s → Scalar.unordered s.costs.magnitude = false)
variable (htolerance : Scalar.isFinite tolerance = true)
variable (hvalues : ∀ x ∈ solution.values, Scalar.isFinite x = true)
variable (h : n.Bound catalogue (outlets nodes n.name) (registry nodes steps) c f)

include hn hsteps hcosts htolerance hvalues h

/-- Either nothing is wrong with the levels of a storage, or what is reported is wrong. -/
theorem levelFault?_cases :
    Network.levelFault? tolerance solution n f = none ∧
        ((registry nodes steps).filling solution n.name).Suits tolerance steps n ∨
      ∃ fault, Network.levelFault? tolerance solution n f = some fault ∧
        ¬((registry nodes steps).filling solution n.name).Suits tolerance steps n ∧
        ((registry nodes steps).filling solution n.name).Fault tolerance steps n.name fault := by
  cases hstorage : n.storage with
  | none =>
    refine Or.inl ⟨?_, fun s hs => absurd (hstorage.symm.trans hs) (by simp)⟩
    unfold Network.levelFault?
    rw [hstorage]
    rfl
  | some s =>
    have hzero := Scalar.Ordered.of_isFinite (Scalar.Ordered.isFinite_zero (K := K))
    by_cases hfree : s.costs.magnitude ≤ 0
    · refine Or.inl ⟨?_, fun s' hs hpos => ?_⟩
      · unfold Network.levelFault?
        rw [hstorage]
        cases f.storage with
        | none => rfl
        | some vars => simp [guard, hfree]
      · obtain rfl := Option.some.inj (hstorage.symm.trans hs)
        exact absurd hpos ((Scalar.Ordered.not_lt hzero (hcosts _ hstorage)).2 hfree)
    have hpos : 0 < s.costs.magnitude := by
      by_contra hnot
      exact hfree ((Scalar.Ordered.not_lt hzero (hcosts _ hstorage)).1 hnot)
    set v := (registry nodes steps).filling solution n.name
    have hfinite := Solution.isFinite_valueOf hvalues
    have hlevel : ∀ a ∈ (List.range steps).map v.level, Scalar.unordered a = false := by
      rw [List.forall_mem_map]
      exact fun t _ => Scalar.Ordered.of_isFinite (hfinite _)
    obtain ⟨least, hmem, greatest, hmem', hextremes, hleast, hgreatest⟩ :=
      exists_extremes (by simpa using hsteps.ne') hlevel
    rw [levelFault?_eq hnames hn hstorage hfree h hextremes]
    simp only [List.mem_map, List.mem_range, forall_exists_index, and_imp,
      forall_apply_eq_imp_iff₂] at hmem hmem' hleast hgreatest
    rcases Filling.plausible_or_fault n.name ⟨hmem, hleast⟩ ⟨hmem', hgreatest⟩ htolerance
      (hfinite _) fun _ _ => hfinite _ with ⟨hnone, hplausible⟩ | ⟨fault, hsome, hfault⟩
    · exact Or.inl ⟨hnone, fun _ _ _ => hplausible⟩
    · have hnot := hfault.not_plausible htolerance (hfinite _) fun _ _ => hfinite _
      exact Or.inr ⟨fault, hsome, fun hsuits => hnot (hsuits s hstorage hpos), hfault⟩

end Registry

/-! ## All storages -/

section Network

variable {nodes : List (Node K)} {grid : Grid} {config : Config K} {cs : List NodeCommodities}
variable {groups : List (Rows K)} {net : Network K} {solution : Solution K}

theorem Compiled.checkLevels_eq (hc : Compiled nodes grid config cs groups net) :
    ({ net with solution := some solution } : Network K).checkLevels =
      match (nodes.zip net.flows).findSome? fun p =>
          Network.levelFault? config.tolerance solution p.1 p.2 with
      | some fault => .error (.level fault)
      | none => .ok () := by
  rw [hc.network]
  rfl

theorem Compiled.filling_eq (hc : Compiled nodes grid config cs groups net) (name : String) :
    net.model.filling solution name = (registry nodes grid.size).filling solution name := by
  rw [hc.model]
  rfl

variable [Scalar.Ordered K]
variable (hcosts : ∀ n ∈ nodes, ∀ s, n.storage = some s →
  Scalar.unordered s.costs.magnitude = false)
variable (htolerance : Scalar.isFinite config.tolerance = true)
variable (hvalues : ∀ x ∈ solution.values, Scalar.isFinite x = true)

include hcosts htolerance hvalues

/-- Either all levels suit, or the check reports what is wrong with the first ones that do not. -/
theorem Compiled.suits_or_fault (hc : Compiled nodes grid config cs groups net) :
    let suits := fun n : Node K =>
      (net.model.filling solution n.name).Suits config.tolerance grid.size n
    let checked := ({ net with solution := some solution } : Network K).checkLevels
    checked = .ok () ∧ (∀ n ∈ nodes, suits n) ∨
      ∃ before n after fault, nodes = before ++ n :: after ∧ (∀ m ∈ before, suits m) ∧ ¬suits n ∧
        (net.model.filling solution n.name).Fault config.tolerance grid.size n.name fault ∧
        checked = .error (.level fault) := by
  intro suits checked
  have hcases : ∀ p ∈ nodes.zip net.flows,
      Network.levelFault? config.tolerance solution p.1 p.2 = none ∧ suits p.1 ∨
      ∃ fault, Network.levelFault? config.tolerance solution p.1 p.2 = some fault ∧ ¬suits p.1 ∧
        (net.model.filling solution p.1.name).Fault config.tolerance grid.size p.1.name fault := by
    rintro ⟨n, f⟩ hp
    have hn := (List.of_mem_zip hp).1
    obtain ⟨c, hbound⟩ := hc.bound hp
    simp only [suits, hc.filling_eq]
    exact levelFault?_cases hc.names_nodup hn grid.size_pos (hcosts n hn) htolerance hvalues hbound
  have hnodes : (nodes.zip net.flows).map (·.1) = nodes :=
    List.map_fst_zip hc.length_flows.ge
  have hchecked : checked = _ := hc.checkLevels_eq
  cases hfound : (nodes.zip net.flows).findSome? fun p =>
      Network.levelFault? config.tolerance solution p.1 p.2 with
  | none =>
    rw [hfound] at hchecked
    rw [List.findSome?_eq_none_iff] at hfound
    refine Or.inl ⟨hchecked, fun n hn => ?_⟩
    obtain ⟨f, hp⟩ := hc.exists_flows hn
    rcases hcases _ hp with ⟨-, hsuits⟩ | ⟨fault, hfault, -⟩
    · exact hsuits
    · exact absurd (hfault.symm.trans (hfound _ hp)) (by simp)
  | some fault =>
    rw [hfound] at hchecked
    obtain ⟨before, ⟨n, f⟩, after, hzip, hfault, hbefore⟩ := List.findSome?_eq_some_iff.1 hfound
    have hmem : ∀ q, q ∈ before ∨ q = (n, f) → q ∈ nodes.zip net.flows := by
      intro q hq
      rw [hzip, List.mem_append, List.mem_cons]
      exact hq.imp_right Or.inl
    rcases hcases (n, f) (hmem _ (Or.inr rfl)) with ⟨hnone, -⟩ | ⟨fault', hfault', hnot, hwrong⟩
    · exact absurd (hfault.symm.trans hnone) (by simp)
    obtain rfl := Option.some.inj (hfault.symm.trans hfault')
    refine Or.inr ⟨before.map (·.1), n, after.map (·.1), fault, ?_, ?_, hnot, hwrong, hchecked⟩
    · rw [← hnodes, hzip, List.map_append, List.map_cons]
    · rw [List.forall_mem_map]
      intro q hq
      rcases hcases q (hmem q (Or.inl hq)) with ⟨-, hsuits⟩ | ⟨fault', hfault', -⟩
      · exact hsuits
      · exact absurd (hfault'.symm.trans (hbefore q hq)) (by simp)

/-- The check passes exactly the solutions in which each storage that costs anything is empty in
some time step and full in some time step, up to the leeway. Of the other storages it reports the
first one. -/
theorem Network.checkLevels_faults (h : Network.build nodes grid config = .ok net) :
    let suits := fun n : Node K =>
      (net.model.filling solution n.name).Suits config.tolerance grid.size n
    let checked := ({ net with solution := some solution } : Network K).checkLevels
    (checked = .ok () ↔ ∀ n ∈ nodes, suits n) ∧
    ((∃ n ∈ nodes, ¬suits n) → ∃ before n after fault, nodes = before ++ n :: after ∧
      (∀ m ∈ before, suits m) ∧ ¬suits n ∧
      (net.model.filling solution n.name).Fault config.tolerance grid.size n.name fault ∧
      checked = .error (.level fault) ∧ (Error.level fault).kind = ErrorKind.implausible) := by
  intro suits checked
  obtain ⟨cs, groups, hc⟩ := Network.build_eq_ok_iff.1 h
  rcases hc.suits_or_fault hcosts htolerance hvalues with
    ⟨hok, hall⟩ | ⟨before, n, after, fault, hnodes, hbefore, hnot, hfault, herror⟩
  · exact ⟨iff_of_true hok hall, fun ⟨n, hn, hnot⟩ => absurd (hall n hn) hnot⟩
  · have hn : n ∈ nodes := hnodes ▸ List.mem_append_right before List.mem_cons_self
    refine ⟨iff_of_false ?_ fun hall => hnot (hall n hn), fun _ =>
      ⟨before, n, after, fault, hnodes, hbefore, hnot, hfault, herror, rfl⟩⟩
    exact fun hok => absurd (hok.symm.trans herror) (by simp)

end Network

/-! ## Two batteries -/

def breezeBattery : Storage Float :=
  ⟨.plain 1, 1, 0, 0, by decide +kernel, by decide +kernel, by decide +kernel, by decide +kernel⟩

/-- There is a battery at the wind farm, and another one between the farm and the town. -/
def breezeDrafts : List (Draft Float) :=
  [{ name := "wind", role := .scalableInput (.constant windGrid 0.5), costs := some (.plain 1),
      storage := some breezeBattery },
    { name := "hub", role := .generic ⟨["wind"], .single "electricity"⟩,
      storage := some breezeBattery },
    { name := "town",
      role := .fixedOutput ⟨["hub"], .single "electricity"⟩ (.constant windGrid 5) }]

/-- The levels of the farm are 0 and 1 at a size of 1, and those of the hub 1 and 2 at a size
of 2. -/
def breezeSolution : Solution Float :=
  ⟨#[10, 1, 0, 1, 0, 0, 0, 0, 5, 5, 2, 1, 2, 0, 0, 0, 0, 5, 5], 13, #[]⟩

/-- The battery of the farm is passed, and that of the hub is reported with its least level. -/
theorem neverEmpty_hub :
    ∃ net, Network.build (builtNodes breezeDrafts) windGrid .standard = .ok net ∧
      (∀ n ∈ builtNodes breezeDrafts, ∀ s, n.storage = some s →
        Scalar.unordered s.costs.magnitude = false) ∧
      Scalar.isFinite (Config.standard : Config Float).tolerance = true ∧
      (∀ x ∈ breezeSolution.values, Scalar.isFinite x = true) ∧
      let suits := fun n : Node Float => (net.model.filling breezeSolution n.name).Suits
        (Config.standard : Config Float).tolerance windGrid.size n
      ∃ before n after, builtNodes breezeDrafts = before ++ n :: after ∧ (∀ m ∈ before, suits m) ∧
        ¬suits n ∧ (net.model.filling breezeSolution n.name).Fault
          (Config.standard : Config Float).tolerance windGrid.size n.name
          (.neverEmpty "hub" 1 2) := by
  have hcosts : ∀ n ∈ builtNodes breezeDrafts, (n.storage.all fun s =>
      Scalar.unordered s.costs.magnitude = false) = true := by
    decide +kernel
  have hnumbers : ∀ n ∈ builtNodes breezeDrafts, ∀ s, n.storage = some s →
      Scalar.unordered s.costs.magnitude = false := by
    intro n hn s hs
    have h := hcosts n hn
    rw [hs] at h
    exact of_decide_eq_true h
  have htolerance : Scalar.isFinite (Config.standard : Config Float).tolerance = true := by
    decide +kernel
  have hvalues : ∀ x ∈ breezeSolution.values, Scalar.isFinite x = true := by decide +kernel
  obtain ⟨net, h⟩ : ∃ net, Network.build (builtNodes breezeDrafts) windGrid .standard = .ok net :=
    exists_of_isOk (by decide +kernel)
  have hchecked : ((Network.build (builtNodes breezeDrafts) windGrid .standard).bind fun net =>
      ({ net with solution := some breezeSolution } : Network Float).checkLevels) =
        .error (.level (.neverEmpty "hub" 1 2)) := by
    decide +kernel
  rw [h] at hchecked
  obtain ⟨hok, hreport⟩ := Network.checkLevels_faults hnumbers htolerance hvalues h
  obtain ⟨before, n, after, fault, hnodes, hbefore, hnot, hfault, herror, -⟩ := hreport (by
    by_contra hall
    push Not at hall
    exact absurd ((hok.2 hall).symm.trans hchecked) (by simp))
  obtain rfl : fault = .neverEmpty "hub" 1 2 := by
    simpa using herror.symm.trans hchecked
  exact ⟨net, h, hnumbers, htolerance, hvalues, before, n, after, hnodes, hbefore, hnot, hfault⟩

end SupplyNet
