import Mathlib
import SupplyNet.Proofs.Network.Enumeration
import SupplyNet.Proofs.Network.Resolved
import SupplyNet.Proofs.Network.Restocked

/-!
Tied inputs. An input flow counts in a balance of its node if its commodity is converted, and in the
proportions of the inputs if these compare anything. Conversions need not be from every commodity
that comes in, so where neither is so, the node may take any amount.
-/
set_option autoImplicit false

namespace SupplyNet

/-- The coefficient of a column is what it adds to the excess. -/
theorem Constraint.States.coeff_eq {operation : (Var → Rat) → Operation} {clause : Clause}
    {c : Constraint Rat} (h : c.States operation clause) (v : Var) :
    c.expr.coeff v =
      clause.excess (operation (unitAt v)) - clause.excess (operation fun _ => 0) := by
  have hzero : c.expr.weight (fun _ => 0) = 0 := by
    unfold LinearExpr.weight LinearExpr.weightOf
    simp
  rw [← h.excess, ← h.excess, LinearExpr.eval_eq, LinearExpr.eval_eq, hzero]
  change c.expr.weight (unitAt v) = _
  ring

/-- Whether a condition is a balance, or about the proportions of the inputs. -/
def Subject.onInputs : Subject → Bool
  | balance _ | proportion .input _ => true
  | _ => false

namespace Node

/-- The factors that a node converts by. -/
def factors (n : Node Rat) : List (Quantity Rat) :=
  n.convertFactor ::
    n.conversions.toList.flatMap fun conversions => conversions.values.map (·.factor)

/-- Something is made of a commodity. Without conversions of its own, a node converts all that comes
in. -/
def Converts (n : Node Rat) (commodity : String) : Prop :=
  ∀ conversions ∈ n.conversions, ∃ e ∈ conversions.entries, e.2.source = commodity

/-- The inputs of a node have several ratios. -/
def Apportions (n : Node Rat) : Prop := ∃ ratios ∈ n.inputProportions, 2 ≤ ratios.entries.length

instance (n : Node Rat) (commodity : String) : Decidable (n.Converts commodity) :=
  inferInstanceAs (Decidable (∀ conversions ∈ n.conversions, ∃ e ∈ conversions.entries,
    e.2.source = commodity))

instance (n : Node Rat) : Decidable n.Apportions :=
  inferInstanceAs (Decidable (∃ ratios ∈ n.inputProportions, 2 ≤ ratios.entries.length))

/-- A column occurs in a balance of a node in a time step, or in a proportion of its inputs. -/
def Ties (nodes : List (Node Rat)) (grid : Grid) (config : Config Rat) (net : Network Rat)
    (n : Node Rat) (t : Nat) (v : Var) : Prop :=
  ∃ clause ∈ n.clauses nodes config.catalogue grid.hours grid.size,
    clause.step = t ∧ clause.subject.onInputs = true ∧
      ∃ c ∈ net.model.constraints,
        c.States (n.operation config.catalogue net.model) clause ∧ c.expr.coeff v ≠ 0

/-! ## Conversions -/

section Converts

variable {nodes : List (Node Rat)} {catalogue : Catalogue Rat} {n : Node Rat}
variable {c : NodeCommodities} {commodity output : String}

theorem plainFactor_ne_zero (hcatalogue : catalogue.Formed) {source : String} {factor : Quantity Rat}
    (hformed : factor.Formed) (hne : factor.magnitude ≠ 0) :
    plainFactor catalogue output source factor ≠ 0 :=
  mul_ne_zero hne (ratioTo_pos hformed
    (div_pos (hcatalogue.scaleOf_pos output) (hcatalogue.scaleOf_pos source))).ne'

/-- What is made of something is made by one of the factors. -/
theorem factorTo_ne_zero (hcatalogue : catalogue.Formed) (hformed : ∀ q ∈ n.factors, q.Formed)
    (hfactors : ∀ q ∈ n.factors, q.magnitude ≠ 0) (h : n.madeFrom output commodity = true) :
    n.factorTo nodes catalogue output ≠ 0 := by
  unfold madeFrom at h
  unfold factorTo
  unfold factors at hformed hfactors
  cases hconversions : n.conversions with
  | none =>
    have hown := hfactors n.convertFactor List.mem_cons_self
    dsimp only
    split
    · exact plainFactor_ne_zero hcatalogue (hformed _ List.mem_cons_self) hown
    · exact hown
  | some conversions =>
    simp only [hconversions] at h hformed hfactors ⊢
    cases hfind : conversions.find? output with
    | none => simp [hfind] at h
    | some conversion =>
      have hmem : conversion.factor ∈ n.convertFactor ::
          (some conversions).toList.flatMap fun conversions => conversions.values.map (·.factor) := by
        refine List.mem_cons_of_mem _ (List.mem_flatMap.2 ⟨conversions, by simp, ?_⟩)
        exact List.mem_map_of_mem (List.mem_map_of_mem (Keyed.mem_of_find? hfind))
      exact plainFactor_ne_zero hcatalogue (hformed _ hmem) (hfactors _ hmem)

/-- A commodity is converted if one of the output commodities is made from it. -/
theorem converts_iff (hc : n.settle catalogue (outlets nodes n.name) = .ok c) :
    n.Converts commodity ↔ ∃ output ∈ outputNames nodes n, n.madeFrom output commodity = true := by
  have hkeys := fun conversions (h : n.conversions = some conversions) output =>
    keys_conversions hc h output
  rw [outflow_eq_outputNames hc] at hkeys
  unfold Converts madeFrom
  cases hconversions : n.conversions with
  | none =>
    obtain ⟨output, ho⟩ := List.exists_mem_of_ne_nil _ (outputNames_ne_nil nodes n)
    simp only [Option.mem_def, reduceCtorEq, false_implies, implies_true, and_true, true_iff]
    exact ⟨output, ho⟩
  | some conversions =>
    simp only [Option.mem_def, Option.some.injEq, forall_eq']
    constructor
    · rintro ⟨e, he, rfl⟩
      refine ⟨e.1, (hkeys _ hconversions e.1).1 (List.mem_map_of_mem he), ?_⟩
      rw [Keyed.find?_of_mem he]
      simp
    · rintro ⟨output, -, hmade⟩
      cases hfind : conversions.find? output with
      | none => simp [hfind] at hmade
      | some conversion =>
        rw [hfind] at hmade
        exact ⟨_, Keyed.mem_of_find? hfind, (of_decide_eq_true hmade).symm⟩

end Converts

/-! ## Ratios -/

section Apportions

variable {nodes : List (Node Rat)} {n : Node Rat} {l : Label} {ratios : Keyed (Quantity Rat)}

/-- A node without inlets has one ratio at most. -/
theorem inlets_ne_nil_of_ratios (hbuilt : n.Built) (hratios : n.inputProportions = some ratios)
    (hseveral : 2 ≤ ratios.entries.length) : n.inlets ≠ [] := by
  intro hi
  obtain ⟨hkeys, -⟩ := hbuilt.inputProportions_eq_some hratios
  have hinputs : n.inputs = [] := by
    unfold inputs
    rw [hi, List.map_nil]
  have hlength : ratios.keys.length ≤ 1 := by
    rcases hkeys with hkeys | hkeys
    · rcases inputCommodities_of_leaf hi with he | ⟨commodity, he⟩
      · rw [hkeys, he, distinct_eq_nil_iff.2 rfl]
        exact Nat.zero_le 1
      · rw [hkeys, he]
        exact le_refl 1
    · rw [hkeys, hinputs, distinct_eq_nil_iff.2 rfl]
      exact Nat.zero_le 1
  rw [Keyed.keys, List.length_map] at hlength
  omega

/-- If there are several ratios, each input flow shares one of them. -/
theorem exists_mem_members (hbuilt : n.Built) (hratios : n.inputProportions = some ratios)
    (hseveral : 2 ≤ ratios.entries.length) (hl : l ∈ inLabels nodes n) :
    ∃ e ∈ ratios.entries, l ∈ Label.members (inLabels nodes n) ratios e.1 := by
  have hne := inlets_ne_nil_of_ratios hbuilt hratios hseveral
  obtain ⟨hkeys, -⟩ := hbuilt.inputProportions_eq_some hratios
  obtain ⟨i, hi, rfl⟩ := (mem_inLabels.1 hl).resolve_left fun h => hne h.1
  have hlabels : n.inputCommodities = (inLabels nodes n).map (·.commodity) := by
    rw [inputCommodities_of_inlets hne]
    unfold inLabels
    split
    · next hnil => exact absurd hnil hne
    · rw [List.map_map]
      rfl
  have hshared : ∃ key ∈ ratios.keys, Label.sharesKey
      (ratios.keys = distinct ((inLabels nodes n).map (·.commodity))) key
      ⟨some i.source, i.commodity⟩ = true := by
    unfold Label.sharesKey
    by_cases hby : ratios.keys = distinct ((inLabels nodes n).map (·.commodity))
    · refine ⟨i.commodity, ?_, by simp [hby]⟩
      rw [hby, mem_distinct]
      exact List.mem_map_of_mem hl
    · refine ⟨i.source, ?_, by simp [hby]⟩
      rw [hkeys.resolve_left (hlabels ▸ hby), mem_distinct]
      exact List.mem_map_of_mem hi
  obtain ⟨key, hkey, hshares⟩ := hshared
  obtain ⟨e, he, rfl⟩ := List.mem_map.1 hkey
  exact ⟨e, he, List.mem_filter.2 ⟨hl, hshares⟩⟩

end Apportions

/-! ## Clauses that depend on an input flow -/

section Depends

variable {nodes : List (Node Rat)} {catalogue : Catalogue Rat} {n : Node Rat} {l : Label}
variable {steps t : Nat} {hours : Rat} {clause : Clause}

/-- The clauses on the inputs are those of the balances and of the proportions of the inputs. -/
theorem mem_onInputs (hclause : clause ∈ n.clauses nodes catalogue hours steps)
    (hinputs : clause.subject.onInputs = true) :
    (∃ output ∈ outputNames nodes n, clause ∈ n.balanceClauses nodes catalogue hours steps output) ∨
      clause ∈ n.inputProportions.elim []
        (n.proportionClauses catalogue steps .input (inLabels nodes n) Operation.inflow) := by
  obtain ⟨l, hl, hmem⟩ := exists_section hclause
  generalize clause.subject = subject at hl hinputs
  cases subject with
  | balance =>
    obtain rfl : l = (distinct (outputNames nodes n)).flatMap
        (n.balanceClauses nodes catalogue hours steps) := by
      simpa [Subject.family, sections] using hl
    obtain ⟨output, ho, hmem⟩ := List.mem_flatMap.1 hmem
    exact .inl ⟨output, mem_distinct.1 ho, hmem⟩
  | proportion side =>
    cases side with
    | input =>
      obtain rfl : l = n.inputProportions.elim []
          (n.proportionClauses catalogue steps .input (inLabels nodes n) Operation.inflow) := by
        simpa [Subject.family, sections] using hl
      exact .inr hmem
    | output => cases hinputs
  | chargeLimit | dischargeLimit | levelLimit | levelBalance | sizeLimit => cases hinputs

theorem apportions_of_mem (hclause : clause ∈ n.inputProportions.elim []
    (n.proportionClauses catalogue steps .input (inLabels nodes n) Operation.inflow)) :
    n.Apportions := by
  cases hratios : n.inputProportions with
  | none =>
    rw [hratios] at hclause
    exact absurd hclause List.not_mem_nil
  | some ratios =>
    rw [hratios] at hclause
    obtain ⟨first, others, hentries, e, he, -⟩ := mem_proportionClauses.1 hclause
    refine ⟨ratios, hratios, ?_⟩
    rw [hentries, List.length_cons]
    exact Nat.succ_le_succ (List.length_pos_of_mem he)

theorem mem_clauses_of_balance {output : String} (ho : output ∈ outputNames nodes n)
    (hclause : clause ∈ n.balanceClauses nodes catalogue hours steps output) :
    clause ∈ n.clauses nodes catalogue hours steps :=
  List.mem_append_left _ (List.mem_flatMap.2 ⟨output, mem_distinct.2 ho, hclause⟩)

theorem mem_clauses_of_inputs {ratios : Keyed (Quantity Rat)}
    (hratios : n.inputProportions = some ratios) (hclause : clause ∈
      n.proportionClauses catalogue steps .input (inLabels nodes n) Operation.inflow ratios) :
    clause ∈ n.clauses nodes catalogue hours steps := by
  refine List.mem_append_right _ (List.mem_append_right _ (List.mem_append_left _ ?_))
  rw [hratios]
  exact hclause

variable (hw : Wired nodes) (hnames : ((variableKeys nodes).map (·.name)).Nodup) (hn : n ∈ nodes)
variable (hbuilt : n.Built) (hk : ¬n.kind.isInput) (hl : l ∈ inLabels nodes n) (ht : t < steps)

include hw hnames hn hbuilt hk hl ht

/-- The balance of an output depends on the input flows that it is made from. -/
theorem excess_balance_ne_iff {output : String}
    (hfactor : n.madeFrom output l.commodity = true → n.factorTo nodes catalogue output ≠ 0)
    (hclause : clause ∈ n.balanceClauses nodes catalogue hours steps output)
    (hstep : clause.step = t) :
    clause.excess (n.operation catalogue (registry nodes steps)
        (unitAt ((registry nodes steps).columnOf (n.inflowKey l) t))) ≠
      clause.excess (n.operation catalogue (registry nodes steps) fun _ => 0) ↔
    n.madeFrom output l.commodity = true := by
  obtain ⟨s, -, rfl⟩ := List.mem_map.1 hclause
  obtain rfl : t = s := hstep.symm
  have hout := Label.total_congr (p := fun l => decide (l.commodity = output))
    (outflowOf_unitAt_inflowKey catalogue hnames hn ht hk hw hbuilt.inputs_nodup.1 hl)
  have hnet := netCharge_unitAt_inflowKey catalogue hnames hn ht hk hl hours
  have hnone : Label.total (inLabels nodes n) (fun l => n.madeFrom output l.commodity)
      (n.inflowOf catalogue (registry nodes steps) (fun _ => 0) t) = 0 :=
    Label.total_zero fun l _ _ => inflowOf_zero hk
  have hin := Label.total_ne_zero_iff (p := fun l => n.madeFrom output l.commodity)
    (inflowOf_unitAt catalogue hnames hn ht hk hbuilt.inputs_nodup.2 hl) hl
  dsimp only [operation] at hnet ⊢
  rw [hout, hnet, hnone, mul_zero, sub_zero, ne_eq, sub_eq_self, ← ne_eq, mul_ne_zero_iff, hin]
  exact and_iff_right_of_imp hfactor

omit hw in
/-- With several ratios, one of the clauses of the input proportions depends on each input flow. -/
theorem exists_excess_ne {streams : List (Stream Rat)}
    (hstreams : streams.map Stream.label = inLabels nodes n) {rows : Rows Rat}
    (hr : n.proportionRows catalogue steps .input streams n.inputProportions = .ok rows)
    (h : n.Apportions) :
    ∃ clause ∈ n.clauses nodes catalogue hours steps,
      clause.step = t ∧ clause.subject.onInputs = true ∧
      clause.excess (n.operation catalogue (registry nodes steps)
          (unitAt ((registry nodes steps).columnOf (n.inflowKey l) t))) ≠
        clause.excess (n.operation catalogue (registry nodes steps) fun _ => 0) := by
  obtain ⟨ratios, hratios, hseveral⟩ := h
  have hratios := Option.mem_def.1 hratios
  rw [hratios] at hr
  obtain ⟨e, he, hmember⟩ := exists_mem_members hbuilt hratios hseveral hl
  obtain ⟨first, second, others, hentries⟩ : ∃ first second others,
      ratios.entries = first :: second :: others := by
    match hentries : ratios.entries with
    | first :: second :: others => exact ⟨first, second, others, rfl⟩
    | [] | [_] => simp [hentries] at hseveral
  -- The flow is in the first share or in a later one, which is then compared with the first.
  obtain ⟨e', he', hmember⟩ : ∃ e' ∈ second :: others,
      l ∈ Label.members (inLabels nodes n) ratios first.1 ∨
        l ∈ Label.members (inLabels nodes n) ratios e'.1 := by
    rw [hentries] at he
    rcases List.mem_cons.1 he with rfl | he
    · exact ⟨second, List.mem_cons_self, .inl hmember⟩
    · exact ⟨e, he, .inr hmember⟩
  refine ⟨_, mem_clauses_of_inputs hratios (mem_proportionClauses.2
    ⟨first, _, hentries, e', he', t, ht, rfl⟩), rfl, rfl, ?_⟩
  rw [← hstreams] at hmember ⊢
  refine excess_ne_of_mem_members Operation.inflow hr hentries he' hmember ?_ ?_
  · rw [hstreams]
    exact inflowOf_unitAt catalogue hnames hn ht hk hbuilt.inputs_nodup.2 hl
  · intro l _
    exact inflowOf_zero hk

end Depends

end Node

section Network

variable {nodes : List (Node Rat)} {grid : Grid} {config : Config Rat} {net : Network Rat}
variable {cs : List NodeCommodities} {groups : List (Rows Rat)} {n : Node Rat} {t : Nat}

theorem Node.Makes.exists_inputRows {currency : Measure.Unit Rat} {p : Part Rat}
    (h : n.Makes nodes grid config currency p) : ∃ rows, n.proportionRows config.catalogue grid.size
      .input p.flows.inflows n.inputProportions = .ok rows := by
  have hrow : n.proportionRows config.catalogue grid.size .input p.flows.inflows n.inputProportions ∈
      n.rows config.catalogue grid.size grid.hours p.flows :=
    List.mem_append_right _ (List.mem_cons_of_mem _ List.mem_cons_self)
  rw [h.rows] at hrow
  obtain ⟨rows, -, hrow⟩ := List.mem_map.1 hrow
  exact ⟨rows, hrow.symm⟩

/-- A column occurs in a condition if what the condition states depends on it. -/
theorem Compiled.ties_iff (hc : Compiled nodes grid config cs groups net)
    (hbuilt : ∀ n ∈ nodes, n.Built) (hn : n ∈ nodes) {v : Var} :
    n.Ties nodes grid config net t v ↔
      ∃ clause ∈ n.clauses nodes config.catalogue grid.hours grid.size,
        clause.step = t ∧ clause.subject.onInputs = true ∧
          clause.excess (n.operation config.catalogue net.model (unitAt v)) ≠
            clause.excess (n.operation config.catalogue net.model fun _ => 0) := by
  unfold Node.Ties
  refine exists_congr fun clause => and_congr_right fun hclause => and_congr_right fun _ =>
    and_congr_right fun _ => ?_
  constructor
  · rintro ⟨c, -, hstates, hcoeff⟩
    rw [hstates.coeff_eq] at hcoeff
    exact sub_ne_zero.1 hcoeff
  · intro hne
    obtain ⟨c, hmem, hstates⟩ := hc.exists_states hbuilt hn hclause
    refine ⟨c, hmem, hstates, ?_⟩
    rw [hstates.coeff_eq]
    exact sub_ne_zero.2 hne

/-- The column of an input flow occurs in a condition on the inputs exactly if the flow is converted
or if the inputs have several ratios. -/
theorem Compiled.ties_inflow_iff (hc : Compiled nodes grid config cs groups net)
    (hbuilt : ∀ n ∈ nodes, n.Built) (hcatalogue : config.catalogue.Formed) (hn : n ∈ nodes)
    (hk : ¬n.kind.isInput) (hformed : ∀ q ∈ n.factors, q.Formed)
    (hfactors : ∀ q ∈ n.factors, q.magnitude ≠ 0) {l : Label} (hl : l ∈ Node.inLabels nodes n)
    (ht : t < grid.size) :
    n.Ties nodes grid config net t (net.model.columnOf (n.inflowKey l) t) ↔
      n.Converts l.commodity ∨ n.Apportions := by
  rw [hc.ties_iff hbuilt hn]
  obtain ⟨currency, parts, -, hparts, rfl⟩ := hc.exists_parts
  obtain ⟨p, -, hmakes⟩ := exists_of_mem_forall₂ hparts hn
  have hnames := hc.names_nodup
  have hfactor : ∀ output, n.madeFrom output l.commodity = true →
      n.factorTo nodes config.catalogue output ≠ 0 := fun _ =>
    Node.factorTo_ne_zero hcatalogue hformed hfactors
  have hbalance := fun output {clause : Clause}
      (h : clause ∈ n.balanceClauses nodes config.catalogue grid.hours grid.size output) =>
    Node.excess_balance_ne_iff hc.wired hnames hn (hbuilt n hn) hk hl ht (hfactor output) h
  constructor
  · rintro ⟨clause, hclause, hstep, hinputs, hne⟩
    rcases Node.mem_onInputs hclause hinputs with ⟨output, ho, hclause⟩ | hclause
    · exact .inl ((Node.converts_iff hmakes.settled).2
        ⟨output, ho, (hbalance output hclause hstep).1 hne⟩)
    · exact .inr (Node.apportions_of_mem hclause)
  · rintro (hconverts | happortions)
    · obtain ⟨output, ho, hmade⟩ := (Node.converts_iff hmakes.settled).1 hconverts
      have hclause : _ ∈ n.balanceClauses nodes config.catalogue grid.hours grid.size output :=
        List.mem_map.2 ⟨t, List.mem_range.2 ht, rfl⟩
      exact ⟨_, Node.mem_clauses_of_balance ho hclause, rfl, rfl,
        (hbalance output hclause rfl).2 hmade⟩
    · obtain ⟨rows, hr⟩ := hmakes.exists_inputRows
      exact Node.exists_excess_ne hnames hn (hbuilt n hn) hk hl ht
        (Node.label_inflows (hmakes.bound hc.wired hn)) hr happortions

/-- In a built network, the column of an input flow occurs in a balance of its node or in a proportion
of its inputs exactly if something is made of its commodity or the inputs have several ratios. Without
conversions of its own, a node makes something of all that comes in. -/
theorem Network.tied_inflow_iff (hbuilt : ∀ n ∈ nodes, n.Built)
    (h : Network.build nodes grid config = .ok net) (hcatalogue : config.catalogue.Formed)
    (hn : n ∈ nodes) (hk : ¬n.kind.isInput) (hformed : ∀ q ∈ n.factors, q.Formed)
    (hfactors : ∀ q ∈ n.factors, q.magnitude ≠ 0) {l : Label} (hl : l ∈ Node.inLabels nodes n)
    (ht : t < grid.size) :
    n.inflowKey l ∈ variableKeys nodes ∧
      (n.Ties nodes grid config net t (net.model.columnOf (n.inflowKey l) t) ↔
        n.Converts l.commodity ∨ n.Apportions) := by
  obtain ⟨cs, groups, hc⟩ := Network.build_eq_ok_iff.1 h
  exact ⟨Node.inflowKey_mem hn hk hl,
    hc.ties_inflow_iff hbuilt hcatalogue hn hk hformed hfactors hl ht⟩

end Network

/-! ## A plant that wastes gas -/

/-- A plant that takes in electricity and gas, and whose only conversion is from electricity. -/
def wasteDrafts : List (Draft Rat) :=
  [windDraft,
    { name := "gas", role := .generic ⟨[], .single "gas"⟩ },
    { name := "plant", role := .generic ⟨["wind", "gas"], .perInput ["electricity", "gas"]⟩,
      conversions := some (.ofList [("hydrogen", ⟨"electricity", .plain (1 / 2)⟩)]) }]

theorem exists_wasteNetwork :
    ∃ net, Network.build (builtNodes wasteDrafts) windGrid .standard = .ok net :=
  exists_of_isOk (by decide +kernel)

theorem factors_wasteNetwork :
    ∀ n ∈ builtNodes wasteDrafts, ∀ q ∈ n.factors, q.magnitude ≠ 0 ∧ q.unit.isNone = true := by
  decide +kernel

theorem formed_wasteFactors {n : Node Rat} (hn : n ∈ builtNodes wasteDrafts) :
    ∀ q ∈ n.factors, q.Formed := by
  intro q hq unit hu
  have hnone := (factors_wasteNetwork n hn q hq).2
  rw [hu] at hnone
  cases hnone

/-- The electricity is tied to the hydrogen. -/
theorem tied_wasteNetwork :
    ∃ net, Network.build (builtNodes wasteDrafts) windGrid .standard = .ok net ∧
      ∃ n ∈ builtNodes wasteDrafts, ∃ l ∈ Node.inLabels (builtNodes wasteDrafts) n,
        l.neighbour = some "wind" ∧ n.Ties (builtNodes wasteDrafts) windGrid .standard net 0
          (net.model.columnOf (n.inflowKey l) 0) := by
  obtain ⟨net, h⟩ := exists_wasteNetwork
  obtain ⟨n, hn, l, hl, hwind, hk, hconverts⟩ : ∃ n ∈ builtNodes wasteDrafts,
      ∃ l ∈ Node.inLabels (builtNodes wasteDrafts) n, l.neighbour = some "wind" ∧
        ¬n.kind.isInput ∧ n.Converts l.commodity := by
    decide +kernel
  have htied := (Network.tied_inflow_iff (fun _ hn => built_of_mem hn) h Catalogue.formed_standard hn
    hk (formed_wasteFactors hn) (fun q hq => (factors_wasteNetwork n hn q hq).1) hl
    windGrid.size_pos).2
  exact ⟨net, h, n, hn, l, hl, hwind, htied.2 (.inl hconverts)⟩

/-- The gas is in no condition of the plant. -/
theorem untied_wasteNetwork :
    ∃ net, Network.build (builtNodes wasteDrafts) windGrid .standard = .ok net ∧
      (∀ n ∈ builtNodes wasteDrafts, ∀ q ∈ n.factors, q.magnitude ≠ 0) ∧
      ∃ n ∈ builtNodes wasteDrafts, ∃ l ∈ Node.inLabels (builtNodes wasteDrafts) n,
        n.inflowKey l ∈ variableKeys (builtNodes wasteDrafts) ∧ ∃ t < windGrid.size,
          ¬n.Ties (builtNodes wasteDrafts) windGrid .standard net t
            (net.model.columnOf (n.inflowKey l) t) := by
  obtain ⟨net, h⟩ := exists_wasteNetwork
  obtain ⟨n, hn, l, hl, hk, hconverts, hratios⟩ : ∃ n ∈ builtNodes wasteDrafts,
      ∃ l ∈ Node.inLabels (builtNodes wasteDrafts) n,
        ¬n.kind.isInput ∧ ¬n.Converts l.commodity ∧ ¬n.Apportions := by
    decide +kernel
  obtain ⟨cs, groups, hc⟩ := Network.build_eq_ok_iff.1 h
  have hfactors := fun n hn q hq => (factors_wasteNetwork n hn q hq).1
  refine ⟨net, h, hfactors, n, hn, l, hl, Node.inflowKey_mem hn hk hl, 0, windGrid.size_pos, ?_⟩
  rw [hc.ties_inflow_iff (fun _ hn => built_of_mem hn) Catalogue.formed_standard hn hk
    (formed_wasteFactors hn) (hfactors n hn) hl windGrid.size_pos]
  exact not_or.2 ⟨hconverts, hratios⟩

end SupplyNet
