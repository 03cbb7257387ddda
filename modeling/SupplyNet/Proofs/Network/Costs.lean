import Mathlib
import SupplyNet.Proofs.Time.Range
import SupplyNet.Network.Optimum
import SupplyNet.Proofs.Linear.Solving
import SupplyNet.Proofs.Measure.Formed
import SupplyNet.Proofs.Network.Conditions
import SupplyNet.Proofs.Network.Parts
import SupplyNet.Proofs.Node.Built

/-!
The costs of a network. No size, no storage and no flow has negative costs, whatever the units that
these are given in, so the total costs never fall below zero.
-/
set_option autoImplicit false

namespace SupplyNet

/-! ## Costs in units -/

section Formed

variable {K : Type} [Scalar K]

/-- All costs of a node are in formed units. -/
structure Node.CostsFormed (n : Node K) : Prop where
  costs : ∀ costs, n.costs = some costs → costs.Formed
  storage : ∀ storage, n.storage = some storage → storage.costs.Formed
  flows : ∀ costs, n.inputFlowCosts = some costs → costs.Formed

end Formed

/-- Costs in no unit are formed. -/
theorem Node.costsFormed_of_plain {n : Node Rat}
    (h : (n.costs.all fun q => q.unit.isNone) = true ∧
      (n.storage.all fun s => s.costs.unit.isNone) = true ∧
      (n.inputFlowCosts.all fun q => q.unit.isNone) = true) : n.CostsFormed := by
  obtain ⟨hcosts, hstorage, hflows⟩ := h
  refine ⟨fun q hq unit hu => ?_, fun s hs unit hu => ?_, fun q hq unit hu => ?_⟩
  · simp [hq, hu] at hcosts
  · simp [hs, hu] at hstorage
  · simp [hq, hu] at hflows

theorem formed_hour : (Costs.hour : Measure.Unit Rat).Formed :=
  .known (show Measure.Gauge.known? "h" = some _ from rfl)

theorem Quantity.magnitudeIn_nonneg {q : Quantity Rat} (hq : q.Formed) (h : ¬q.magnitude < 0)
    {unit : Measure.Unit Rat} (hunit : unit.Formed) {r : Rat} (hr : q.magnitudeIn unit = .ok r) :
    0 ≤ r := by
  have hratio : 0 ≤ ratioTo q.unit unit.scale := by
    unfold ratioTo
    cases hu : q.unit with
    | none => exact zero_le_one
    | some u => exact (div_pos (hq u hu).scale_pos hunit.scale_pos).le
  rw [Quantity.magnitudeIn_eq hr]
  exact mul_nonneg (not_lt.1 h) hratio

namespace Costs

variable {currency unit : Measure.Unit Rat} {costs : Quantity Rat} {r : Rat}
variable (hcurrency : currency.Formed) (hunit : unit.Formed) (hcosts : costs.Formed)
variable (hnonneg : ¬costs.magnitude < 0)

include hcurrency hunit hcosts hnonneg

theorem ofSize_nonneg (h : ofSize currency unit costs = .ok r) : 0 ≤ r := by
  obtain ⟨target, ht, h⟩ := bind_eq_ok_iff.1 h
  exact costs.magnitudeIn_nonneg hcosts hnonneg (hcurrency.div hunit ht) h

theorem ofAmount_nonneg (h : ofAmount currency unit costs = .ok r) : 0 ≤ r := by
  obtain ⟨amount, ha, h⟩ := bind_eq_ok_iff.1 h
  obtain ⟨target, ht, h⟩ := bind_eq_ok_iff.1 h
  exact costs.magnitudeIn_nonneg hcosts hnonneg (hcurrency.div (hunit.mul formed_hour ha) ht) h

end Costs

/-! ## Costs of a node -/

theorem Flow.nonnegOver_total {size : Nat} {vs : Array Var} (h : ∀ v ∈ vs, v.index < size) :
    LinearExpr.NonnegOver size (Flow.ofVars vs : Flow Rat).total := by
  have hfold : ∀ l : List Var, (∀ v ∈ l, v.index < size) →
      LinearExpr.NonnegOver size ((l.map (.ofVar : Var → LinearExpr Rat)).foldr
        (fun e total => total + e) 0) := by
    intro l hl
    induction l with
    | nil => exact LinearExpr.NonnegOver.zero size
    | cons v l ih =>
      obtain ⟨hv, hl⟩ := List.forall_mem_cons.1 hl
      exact (ih hl).add (LinearExpr.NonnegOver.ofVar hv)
  unfold Flow.ofVars Flow.total
  rw [← Array.foldr_toList, Array.toList_map]
  exact hfold vs.toList fun v hv => h v (Array.mem_toList_iff.1 hv)

namespace Node

section Priced

variable {nodes : List (Node Rat)} {catalogue : Catalogue Rat} {steps : Nat} {n : Node Rat}
variable {c : NodeCommodities} {f : NodeFlows Rat}

/-- The flows into a node that is not an input are variables. -/
theorem exists_key_of_mem_inflows (hn : n ∈ nodes) (hk : ¬n.kind.isInput)
    (h : n.Bound catalogue (outlets nodes n.name) (registry nodes steps) c f) {s : Stream Rat}
    (hs : s ∈ f.inflows) : ∃ k ∈ variableKeys nodes, k.steps? steps = some steps ∧
      s.flow = (registry nodes steps).flowOf k := by
  have hin := h.inflows
  unfold inStreams at hin
  split at hin
  · next hi =>
    obtain ⟨flow, hflow, hf⟩ := map_eq_ok_iff.1 hin
    rw [← hf, List.mem_singleton] at hs
    refine ⟨.inflow n.name, mem_variableKeys_inflow hn hk hi, rfl, ?_⟩
    unfold leafInflow at hflow
    rw [hs]
    split at hflow
    · next profile hr => exact absurd (by rw [kind, hr]; rfl) hk
    · next factors hr => exact absurd (by rw [kind, hr]; rfl) hk
    · exact (Except.ok.inj hflow).symm
  · rw [← Except.ok.inj hin] at hs
    obtain ⟨inlet, hi, rfl⟩ := List.mem_map.1 hs
    exact ⟨.edge inlet.source n.name, mem_variableKeys_edge hn hi, rfl, rfl⟩

variable (hnames : ((variableKeys nodes).map (·.name)).Nodup) (hn : n ∈ nodes)
variable (hbuilt : n.Built) (hformed : n.CostsFormed) (hcatalogue : catalogue.Formed)
variable {currency : Measure.Unit Rat} (hcurrency : currency.Formed) {e : LinearExpr Rat}
variable (h : n.Bound catalogue (outlets nodes n.name) (registry nodes steps) c f)

include hcatalogue

omit hcatalogue in
theorem index_lt_of_mem_seriesOf (hnames : ((variableKeys nodes).map (·.name)).Nodup)
    {k : VariableKey} (hk : k ∈ variableKeys nodes) (hs : k.steps? steps = some steps) {v : Var}
    (hv : v ∈ (registry nodes steps).seriesOf k) :
    v.index < (registry nodes steps).columns.size := by
  obtain ⟨t, hplace⟩ := mem_places_of_mem_seriesOf hnames hk hs hv
  exact (consistent_registry steps hnames).index_lt hplace

theorem formed_of_sizeUnit {unit : Measure.Unit Rat} (hu : n.sizeUnit catalogue f = .ok unit) :
    unit.Formed := by
  unfold sizeUnit at hu
  split at hu
  · exact hcatalogue.of_unitOf (mapError_eq_ok_iff.1 hu)
  · exact absurd hu (by simp)

include hnames hn hbuilt hformed hcurrency h

theorem nonnegOver_sizeCosts (he : n.sizeCosts catalogue currency f = .ok e) :
    LinearExpr.NonnegOver (registry nodes steps).columns.size e := by
  unfold sizeCosts at he
  rw [h.size, sizeIn] at he
  split at he
  · next size costs hsize hcosts =>
    obtain ⟨unit, hu, he⟩ := bind_eq_ok_iff.1 he
    obtain ⟨rate, hrate, he⟩ := bind_eq_ok_iff.1 he
    rw [← Except.ok.inj he]
    split at hsize
    · next hhas =>
      rw [← Option.some.inj hsize]
      refine .term (index_scalarOf_lt hnames (mem_variableKeys_size hn hhas) rfl) ?_
      exact Costs.ofSize_nonneg hcurrency (formed_of_sizeUnit hcatalogue hu)
        (hformed.costs costs hcosts) (hbuilt.costs_nonneg hcosts) (mapError_eq_ok_iff.1 hrate)
    · exact absurd hsize (by simp)
  · rw [← Except.ok.inj he]
    exact .zero _

omit hbuilt in
theorem nonnegOver_storageCosts (he : n.storageCosts catalogue currency f = .ok e) :
    LinearExpr.NonnegOver (registry nodes steps).columns.size e := by
  unfold storageCosts at he
  rw [h.storage, storageIn] at he
  split at he
  · next vars storage hvars hstorage =>
    obtain ⟨unit, hu, he⟩ := bind_eq_ok_iff.1 he
    obtain ⟨rate, hrate, he⟩ := bind_eq_ok_iff.1 he
    rw [← Except.ok.inj he]
    split at hvars
    · next hhas =>
      rw [← Option.some.inj hvars]
      have hkey : .storageSize n.name ∈ variableKeys nodes :=
        mem_variableKeys_storage hn hhas _ (by simp [storageKeys])
      refine .term (index_scalarOf_lt hnames hkey rfl) ?_
      exact Costs.ofAmount_nonneg hcurrency (formed_of_sizeUnit hcatalogue hu)
        (hformed.storage storage hstorage) storage.costs_nonneg (mapError_eq_ok_iff.1 hrate)
    · exact absurd hvars (by simp)
  · rw [← Except.ok.inj he]
    exact .zero _

/-- Only flows that are variables cost anything. -/
theorem nonnegOver_flowCosts {hours : Rat} (hhours : 0 < hours)
    (he : n.flowCosts catalogue currency hours f = .ok e) :
    LinearExpr.NonnegOver (registry nodes steps).columns.size e := by
  unfold flowCosts at he
  split at he
  · rw [← Except.ok.inj he]
    exact .zero _
  · next costs hcosts =>
    obtain ⟨hk, hnonneg⟩ := hbuilt.flowCosts_nonneg hcosts
    have hstream : ∀ s ∈ f.inflows,
        LinearExpr.NonnegOver (registry nodes steps).columns.size s.flow.total := by
      intro s hs
      obtain ⟨k, hmem, hsteps, hflow⟩ :=
        exists_key_of_mem_inflows hn (by rw [hk]; decide) h hs
      rw [hflow]
      exact Flow.nonnegOver_total fun v hv => index_lt_of_mem_seriesOf hnames hmem hsteps hv
    refine foldlM_invariant (fun s hs total total' htotal hstep => ?_) (.zero _) he
    obtain ⟨unit, hu, hstep⟩ := bind_eq_ok_iff.1 hstep
    obtain ⟨rate, hrate, hstep⟩ := bind_eq_ok_iff.1 hstep
    rw [← Except.ok.inj hstep]
    have hrate := Costs.ofAmount_nonneg hcurrency (hcatalogue.of_unitOf (mapError_eq_ok_iff.1 hu))
      (hformed.flows costs hcosts) hnonneg (mapError_eq_ok_iff.1 hrate)
    exact htotal.add ((hstream s hs).scale (mul_nonneg hrate hhours.le))

theorem nonnegOver_totalCosts {hours : Rat} (hhours : 0 < hours)
    (he : n.totalCosts catalogue currency hours f = .ok e) :
    LinearExpr.NonnegOver (registry nodes steps).columns.size e := by
  obtain ⟨size, hsize, he⟩ := bind_eq_ok_iff.1 he
  obtain ⟨storage, hstorage, he⟩ := bind_eq_ok_iff.1 he
  obtain ⟨flows, hflows, he⟩ := bind_eq_ok_iff.1 he
  rw [← Except.ok.inj he]
  have hsize := nonnegOver_sizeCosts hnames hn hbuilt hformed hcatalogue hcurrency h hsize
  have hstorage := nonnegOver_storageCosts hnames hn hformed hcatalogue hcurrency h hstorage
  have hflows := nonnegOver_flowCosts hnames hn hbuilt hformed hcatalogue hcurrency h hhours hflows
  exact (((LinearExpr.NonnegOver.zero _).add hsize).add hstorage).add hflows

end Priced

end Node

/-! ## Costs of a network -/

section Network

variable {nodes : List (Node Rat)} {grid : Grid} {config : Config Rat} {net : Network Rat}

/-- The objective of a network has neither a constant nor a negative coefficient. -/
theorem Compiled.nonnegOver_objective {cs : List NodeCommodities} {groups : List (Rows Rat)}
    (h : Compiled nodes grid config cs groups net) (hbuilt : ∀ n ∈ nodes, n.Built)
    (hformed : ∀ n ∈ nodes, n.CostsFormed) (hcatalogue : config.catalogue.Formed) :
    net.model.objective.NonnegOver net.model.columns.size := by
  obtain ⟨currency, hcurrency, hobjective⟩ := h.costs
  obtain ⟨es, hcosts, hsum⟩ := objective_eq_ok_iff.1 hobjective
  rw [hsum, h.columns_eq]
  refine LinearExpr.NonnegOver.sum ((Matched.of_forall₂ hcosts).forall_mem fun p hp e he => ?_)
  obtain ⟨c, hbound⟩ := h.bound hp
  have hn := (List.of_mem_zip hp).1
  exact Node.nonnegOver_totalCosts h.names_nodup hn (hbuilt _ hn) (hformed _ hn) hcatalogue
    (Measure.Unit.formed_of_read hcurrency) hbound grid.hours_pos he

/-- A solver that calls a program unbounded only if it is. -/
def Solver.SoundAt (solver : Solver Rat) (p : Program Rat) : Prop :=
  solver p = .unbounded → p.Unbounded

theorem Model.program_unbounded_of_solve {m : Model Rat} {solver : Solver Rat}
    {cause : SolveError Rat} (h : m.solve solver = .error cause)
    (hstatus : cause.status = .unbounded) : solver m.program = .unbounded := by
  unfold solve at h
  split at h
  · rw [solution_eq_ok] at h
    exact absurd h (by simp)
  · rw [← Except.error.inj h] at hstatus
    exact absurd hstatus (by simp [SolveError.status])
  · next hsolver => exact hsolver
  · rw [← Except.error.inj h] at hstatus
    exact absurd hstatus (by simp [SolveError.status])

namespace Network

theorem status_of_checkLevels {net : Network Rat} {e : Error Rat}
    (h : net.checkLevels = .error e) : e.status? = none := by
  unfold checkLevels at h
  split at h
  · rw [← Except.error.inj h]
    rfl
  · split at h
    · rw [← Except.error.inj h]
      rfl
    · exact absurd h (by simp)

/-- Only a solver that calls the program unbounded makes an optimization end so. -/
theorem program_unbounded_of_optimizeWith {net : Network Rat} {solver : Solver Rat}
    {e : Error Rat} (h : (net.optimizeWith solver).1 = .error e)
    (hstatus : e.status? = some .unbounded) : solver net.model.program = .unbounded := by
  unfold optimizeWith at h
  cases hsolve : net.model.solve solver with
  | ok s =>
    simp only [hsolve] at h
    split at h
    · cases hcheck : ({ net with solution := some s } : Network Rat).checkLevels with
      | ok u =>
        rw [hcheck] at h
        exact absurd h (by simp [Except.map])
      | error cause =>
        rw [hcheck] at h
        have hcause : cause = e := Except.error.inj h
        have hnone := status_of_checkLevels hcheck
        rw [hcause, hstatus] at hnone
        exact absurd hnone (by simp)
    · exact absurd h (by simp)
  | error cause =>
    simp only [hsolve] at h
    rw [← Except.error.inj h] at hstatus
    exact Model.program_unbounded_of_solve hsolve (Option.some.inj hstatus)

/-- The optimization of a network is never unbounded. All columns are bounded by zero, and no
assignment within the bounds costs less than nothing, so a solver that is right about it will not
say otherwise. -/
theorem never_unbounded (hbuilt : ∀ n ∈ nodes, n.Built)
    (hformed : ∀ n ∈ nodes, n.CostsFormed) (hcatalogue : config.catalogue.Formed)
    (h : Network.build nodes grid config = .ok net) :
    (∀ column ∈ net.model.columns, column.lower = some 0) ∧
    net.model.objective.NonnegOver net.model.columns.size ∧
    (∀ x : Var → Rat, (∀ i l, net.model.program.lowers[i]? = some (some l) → l ≤ x ⟨i⟩) →
      0 ≤ net.model.objective.eval x) ∧
    ∀ (kept : Option (Solution Rat)) (e : Error Rat),
      (∀ solver : Solver Rat, solver.SoundAt net.model.program →
        ({ net with solution := kept }.optimizeWith solver).1 = .error e →
          e.status? ≠ some .unbounded) ∧
      ((∀ choice, SolverChoice.read config.solver = .ok choice →
          Solver.SoundAt choice.solver net.model.program) →
        ({ net with solution := kept }.optimize).1 = .error e → e.status? ≠ some .unbounded) := by
  obtain ⟨cs, groups, hc⟩ := Network.build_eq_ok_iff.1 h
  have hobjective := hc.nonnegOver_objective hbuilt hformed hcatalogue
  have hbounded : ¬net.model.program.Unbounded := by
    intro hunbounded
    obtain ⟨x, hx, hlt⟩ := hunbounded 0
    exact absurd hlt (not_lt.2 (hobjective.eval_nonneg (hc.feasible_iff.1 hx).1))
  have hwith : ∀ (kept : Option (Solution Rat)) (e : Error Rat) (solver : Solver Rat),
      solver.SoundAt net.model.program →
        ({ net with solution := kept }.optimizeWith solver).1 = .error e →
          e.status? ≠ some .unbounded :=
    fun kept e solver hsound he hstatus =>
      hbounded (hsound (program_unbounded_of_optimizeWith he hstatus))
  refine ⟨fun column hcolumn => ?_, hobjective,
    fun x hx => hobjective.eval_nonneg (hc.bounds_iff.1 hx),
    fun kept e => ⟨hwith kept e, fun hsound he => ?_⟩⟩
  · rw [hc.columns_eq] at hcolumn
    exact lower_of_mem_columns (Array.mem_toList_iff.2 hcolumn)
  · have hconfig : net.config = config := by rw [hc.network]
    unfold optimize at he
    dsimp only at he
    cases hread : SolverChoice.read net.config.solver with
    | error cause =>
      rw [hread] at he
      rw [← Except.error.inj he]
      simp [Error.status?]
    | ok choice =>
      rw [hread] at he
      exact hwith kept e choice.solver (hsound choice (hconfig ▸ hread)) he

end Network

end Network

/-- The simplex method does not call the program of a wind farm unbounded. -/
theorem bounds_of_windNetwork :
    (∀ n ∈ builtNodes windDrafts, n.Built) ∧ (∀ n ∈ builtNodes windDrafts, n.CostsFormed) ∧
    (Config.standard : Config Rat).catalogue.Formed ∧
    ∃ net, Network.build (builtNodes windDrafts) windGrid .standard = .ok net ∧
      net.model.objective.NonnegOver net.model.columns.size ∧
      ∀ (kept : Option (Solution Rat)) (e : Error Rat),
        ({ net with solution := kept }.optimize).1 = .error e → e.status? ≠ some .unbounded := by
  have hbuilt : ∀ n ∈ builtNodes windDrafts, n.Built := fun _ hn => built_of_mem hn
  have hplain : ∀ n ∈ builtNodes windDrafts, (n.costs.all fun q => q.unit.isNone) = true ∧
      (n.storage.all fun s => s.costs.unit.isNone) = true ∧
      (n.inputFlowCosts.all fun q => q.unit.isNone) = true := by
    decide +kernel
  have hformed : ∀ n ∈ builtNodes windDrafts, n.CostsFormed := fun n hn =>
    Node.costsFormed_of_plain (hplain n hn)
  obtain ⟨net, h⟩ := exists_windNetwork
  have hoptimal : (Network.build (builtNodes windDrafts) windGrid .standard).toOption.all
      (fun net => match Linear.simplex net.model.program with
        | .unbounded => false
        | _ => true) = true := by
    decide +kernel
  rw [h] at hoptimal
  have hsound : ∀ choice, SolverChoice.read (Config.standard : Config Rat).solver = .ok choice →
      Solver.SoundAt choice.solver net.model.program := by
    intro choice _ hunbounded
    cases choice with
    | simplex =>
      have hsimplex : Linear.simplex net.model.program = .unbounded := hunbounded
      simp [Except.toOption, hsimplex] at hoptimal
  obtain ⟨-, hobjective, -, hnever⟩ :=
    Network.never_unbounded hbuilt hformed Catalogue.formed_standard h
  exact ⟨hbuilt, hformed, Catalogue.formed_standard, net, h, hobjective, fun kept e =>
    (hnever kept e).2 hsound⟩

end SupplyNet
