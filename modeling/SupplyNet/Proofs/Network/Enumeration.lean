import Mathlib
import SupplyNet.Proofs.Network.Parts
import SupplyNet.Proofs.Network.Probes

/-!
The conditions of a network, one by one. Every clause of a node depends on some column, so each of
the conditions that state them is stored: no clause is left out, none is stated twice and nothing
else is.
-/
set_option autoImplicit false

namespace SupplyNet

/-! ## What each clause depends on -/

/-- Conditions have columns if what they state depends on them. -/
theorem Constraint.isConst_of_states {operation : (Var → Rat) → Operation} {clauses : List Clause}
    {rows : Rows Rat} (h : List.Forall₂ (fun clause d => d.States operation clause) clauses rows)
    (hex : ∀ clause ∈ clauses,
      ∃ x, clause.excess (operation x) ≠ clause.excess (operation fun _ => 0)) :
    ∀ d ∈ rows, d.expr.isConst = false := by
  intro d hd
  obtain ⟨clause, hclause, hstates⟩ := exists_of_mem_forall₂ h.flip hd
  obtain ⟨x, hx⟩ := hex clause hclause
  exact hstates.isConst_eq_false hx

namespace Node

section Depends

variable {nodes : List (Node Rat)} {catalogue : Catalogue Rat} {n : Node Rat}
variable {c : NodeCommodities} {f : NodeFlows Rat} {steps : Nat} {hours : Rat} {rows : Rows Rat}
variable (hnames : ((variableKeys nodes).map (·.name)).Nodup) (hn : n ∈ nodes)

include hnames hn

/-- Each clause of a storage depends on what it limits. The level balance does so on what is
discharged, as the level of a single step may cancel. -/
theorem exists_excess_storageClauses {s : Storage Rat} (hstorage : n.storage = some s)
    {clause : Clause} (hclause : clause ∈ n.storageClauses hours steps s) :
    ∃ x, clause.excess (n.operation catalogue (registry nodes steps) x) ≠
      clause.excess (n.operation catalogue (registry nodes steps) fun _ => 0) := by
  obtain ⟨hsize, hlevel, hcharge, hdischarge⟩ :=
    stored_mem_variableKeys hn (show n.storage.isSome = true by rw [hstorage]; rfl)
  obtain ⟨t, ht, hclause⟩ := List.mem_flatMap.1 hclause
  rw [List.mem_range] at ht
  have hprevious : (t + steps - 1) % steps < steps := Nat.mod_lt _ (by omega)
  simp only [List.mem_cons, List.not_mem_nil, or_false] at hclause
  rcases hclause with rfl | rfl | rfl | rfl
  · refine ⟨unitAt ((registry nodes steps).columnOf (.charge n.name) t), ?_⟩
    simp [storageClause, operation, Model.storageValues,
      unitAt_columnOf hnames hcharge rfl hcharge rfl ht ht,
      unitAt_scalarOf hnames hcharge rfl hsize rfl ht]
  · refine ⟨unitAt ((registry nodes steps).columnOf (.discharge n.name) t), ?_⟩
    simp [storageClause, operation, Model.storageValues,
      unitAt_columnOf hnames hdischarge rfl hdischarge rfl ht ht,
      unitAt_scalarOf hnames hdischarge rfl hsize rfl ht]
  · refine ⟨unitAt ((registry nodes steps).columnOf (.level n.name) t), ?_⟩
    simp [storageClause, operation, Model.storageValues,
      unitAt_columnOf hnames hlevel rfl hlevel rfl ht ht,
      unitAt_scalarOf hnames hlevel rfl hsize rfl ht]
  · refine ⟨unitAt ((registry nodes steps).columnOf (.discharge n.name) t), ?_⟩
    simp [levelBalanceClause, storageClause, operation, Model.storageValues,
      unitAt_columnOf hnames hdischarge rfl hdischarge rfl ht ht,
      unitAt_columnOf hnames hdischarge rfl hcharge rfl ht ht,
      unitAt_columnOf hnames hdischarge rfl hlevel rfl ht ht,
      unitAt_columnOf hnames hdischarge rfl hlevel rfl ht hprevious]

end Depends

/-! ### Shares -/

section Shares

variable {n : Node Rat} {catalogue : Catalogue Rat} {steps : Nat} {side : Direction}
variable {streams : List (Stream Rat)} {ratios : Keyed (Quantity Rat)} {rows : Rows Rat}

/-- If the conditions of proportions are made, each ratio is converted to the unit of the first flow
that shares it, and it is positive there. -/
theorem converted_of_proportionRows
    (hr : n.proportionRows catalogue steps side streams (some ratios) = .ok rows)
    {e : String × Quantity Rat} (he : e ∈ ratios.entries) :
    ∃ first rest unit, Label.members (streams.map Stream.label) ratios e.1 = first :: rest ∧
      catalogue.unitOf first.commodity = .ok unit ∧
      e.2.magnitudeIn unit = .ok (Label.ratioAmong catalogue (first :: rest) e.2) ∧
      0 < Label.ratioAmong catalogue (first :: rest) e.2 := by
  obtain ⟨groups, hgroups, -⟩ := bind_eq_ok_iff.1 hr
  obtain ⟨g, -, hg⟩ := exists_of_mem_forall₂ (mapM_eq_ok_iff.1 hgroups) he
  rw [members_map_label]
  unfold proportionGroup at hg
  dsimp only at hg
  generalize sharing streams _ e.1 = members at hg ⊢
  split at hg
  · exact absurd hg (by simp)
  · next first rest =>
    obtain ⟨unit, hu, hg⟩ := bind_eq_ok_iff.1 hg
    obtain ⟨value, hv, hg⟩ := bind_eq_ok_iff.1 hg
    have hunit := mapError_eq_ok_iff.1 hu
    have hvalue := mapError_eq_ok_iff.1 hv
    split at hg
    · next hpos =>
      have hratio : value =
          Label.ratioAmong catalogue (first.label :: rest.map Stream.label) e.2 := by
        rw [Quantity.magnitudeIn_eq hvalue, Catalogue.scale_of_unitOf hunit]
        rfl
      rw [hratio] at hvalue hpos
      exact ⟨first.label, rest.map Stream.label, unit, List.map_cons, hunit, hvalue, hpos⟩
    · exact absurd hg (throw_ne_ok _ _)

/-- If the conditions of proportions are made, some flow shares each ratio, which is positive. -/
theorem shared_of_proportionRows
    (hr : n.proportionRows catalogue steps side streams (some ratios) = .ok rows)
    {e : String × Quantity Rat} (he : e ∈ ratios.entries) :
    (∃ l, l ∈ Label.members (streams.map Stream.label) ratios e.1) ∧
      0 < Label.ratioAmong catalogue
        (Label.members (streams.map Stream.label) ratios e.1) e.2 := by
  obtain ⟨first, rest, unit, hmembers, -, -, hpos⟩ := converted_of_proportionRows hr he
  rw [hmembers]
  exact ⟨⟨first, List.mem_cons_self⟩, hpos⟩

theorem mem_proportionClauses {labels : List Label} {flow : Operation → Nat → Label → Rat}
    {clause : Clause} :
    clause ∈ n.proportionClauses catalogue steps side labels flow ratios ↔
      ∃ first others, ratios.entries = first :: others ∧ ∃ e ∈ others, ∃ t < steps,
        ⟨.proportion side e.1, t, s!"proportion_{n.name}_{side.text}_{e.1}[{t}]", .eq, fun o =>
          Label.shareOf catalogue labels ratios (flow o t) first -
            Label.shareOf catalogue labels ratios (flow o t) e⟩ = clause := by
  unfold proportionClauses
  cases hentries : ratios.entries with
  | nil => simp
  | cons first others =>
    simp only [List.mem_flatMap, Clause.overSteps, List.mem_map, List.mem_range, List.cons.injEq]
    constructor
    · rintro ⟨e, he, t, ht, hclause⟩
      exact ⟨first, others, ⟨rfl, rfl⟩, e, he, t, ht, hclause⟩
    · rintro ⟨_, _, ⟨rfl, rfl⟩, e, he, t, ht, hclause⟩
      exact ⟨e, he, t, ht, hclause⟩

/-- The clause of a share depends on each flow that is in the share or in the first one. -/
theorem excess_ne_of_mem_members (flow : Operation → Nat → Label → Rat) {o z : Operation} {t : Nat}
    {l : Label} {first e : String × Quantity Rat}
    (hr : n.proportionRows catalogue steps side streams (some ratios) = .ok rows)
    {others : List (String × Quantity Rat)} (hentries : ratios.entries = first :: others)
    (he : e ∈ others)
    (hl : l ∈ Label.members (streams.map Stream.label) ratios first.1 ∨
      l ∈ Label.members (streams.map Stream.label) ratios e.1)
    (ho : ∀ l' ∈ streams.map Stream.label, flow o t l' = if l' = l then 1 else 0)
    (hz : ∀ l' ∈ streams.map Stream.label, flow z t l' = 0) :
    Label.shareOf catalogue (streams.map Stream.label) ratios (flow o t) first -
        Label.shareOf catalogue (streams.map Stream.label) ratios (flow o t) e ≠
      Label.shareOf catalogue (streams.map Stream.label) ratios (flow z t) first -
        Label.shareOf catalogue (streams.map Stream.label) ratios (flow z t) e := by
  have hnone : ∀ e', Label.shareOf catalogue (streams.map Stream.label) ratios (flow z t) e' = 0 :=
    fun e' => Label.shareOf_zero fun l hl => hz l (List.mem_of_mem_filter hl)
  have hkeys : first.1 ≠ e.1 :=
    ne_of_lt ((List.pairwise_cons.1 (hentries ▸ ratios.ascending)).1 e he)
  have hratio := fun e he => (shared_of_proportionRows (e := e) hr (hentries ▸ he)).2
  rw [hnone, hnone, sub_zero]
  exact Label.sub_shareOf_ne ho hkeys hl (hratio first List.mem_cons_self)
    (hratio e (List.mem_cons_of_mem first he))

/-- Each share but the first depends on the flows that make it up. -/
theorem exists_excess_proportionClauses {operation : (Var → Rat) → Operation}
    {flow : Operation → Nat → Label → Rat}
    (hr : n.proportionRows catalogue steps side streams (some ratios) = .ok rows)
    (hprobe : ∀ l ∈ streams.map Stream.label, ∀ t < steps, ∃ x,
      ∀ l' ∈ streams.map Stream.label, flow (operation x) t l' = if l' = l then 1 else 0)
    (hzero : ∀ l ∈ streams.map Stream.label, ∀ t < steps,
      flow (operation fun _ => 0) t l = 0) {clause : Clause}
    (hclause : clause ∈
      n.proportionClauses catalogue steps side (streams.map Stream.label) flow ratios) :
    ∃ x, clause.excess (operation x) ≠ clause.excess (operation fun _ => 0) := by
  obtain ⟨first, others, hentries, e, he, t, ht, rfl⟩ := mem_proportionClauses.1 hclause
  obtain ⟨l, hl⟩ :=
    (shared_of_proportionRows hr (hentries ▸ List.mem_cons_of_mem first he)).1
  obtain ⟨x, hx⟩ := hprobe l (List.mem_of_mem_filter hl) t ht
  exact ⟨x, excess_ne_of_mem_members flow hr hentries he (.inr hl) hx fun l' hl' => hzero l' hl' t ht⟩

end Shares

/-! ### All conditions of a node -/

section Rows

variable {nodes : List (Node Rat)} {catalogue : Catalogue Rat} {n : Node Rat}
variable {c : NodeCommodities} {f : NodeFlows Rat} {steps : Nat} {hours : Rat} {rows : Rows Rat}
variable (hnames : ((variableKeys nodes).map (·.name)).Nodup) (hn : n ∈ nodes)
variable (h : n.Bound catalogue (outlets nodes n.name) (registry nodes steps) c f)

include hnames hn h

theorem isConst_proportionRows_input (hbuilt : n.Built)
    (hr : n.proportionRows catalogue steps .input f.inflows n.inputProportions = .ok rows) :
    ∀ d ∈ rows, d.expr.isConst = false := by
  refine Constraint.isConst_of_states (states_inputRows hnames hn h hr) fun clause hclause => ?_
  cases hratios : n.inputProportions with
  | none =>
    rw [hratios] at hclause
    exact absurd hclause List.not_mem_nil
  | some ratios =>
    have hk : ¬n.kind.isInput := fun hk => by
      rw [hbuilt.inputProportions_of_isInput hk] at hratios
      cases hratios
    rw [hratios] at hclause hr
    rw [← label_inflows h] at hclause
    refine exists_excess_proportionClauses hr (fun l hl t ht => ?_) (fun l _ t _ => ?_) hclause
    · rw [label_inflows h] at hl ⊢
      exact ⟨_, inflowOf_unitAt catalogue hnames hn ht hk hbuilt.inputs_nodup.2 hl⟩
    · exact inflowOf_zero hk

theorem isConst_proportionRows_output (hw : Wired nodes) (hbuilt : ∀ n ∈ nodes, n.Built)
    (hr : n.proportionRows catalogue steps .output f.outflows n.outputProportions = .ok rows) :
    ∀ d ∈ rows, d.expr.isConst = false := by
  refine Constraint.isConst_of_states (states_outputRows hnames hn h hr) fun clause hclause => ?_
  cases hratios : n.outputProportions with
  | none =>
    rw [hratios] at hclause
    exact absurd hclause List.not_mem_nil
  | some ratios =>
    have hk : n.kind ≠ .fixedOutput := fun hk => by
      rw [(hbuilt n hn).outputProportions_of_isOutput (by rw [hk]; decide)] at hratios
      cases hratios
    have hinputs : ∀ n ∈ nodes, n.inputs.Nodup := fun n hn => (hbuilt n hn).inputs_nodup.2
    rw [hratios] at hclause hr
    rw [← label_outflows h] at hclause
    refine exists_excess_proportionClauses hr (fun l hl t ht => ?_) (fun l _ t _ => ?_) hclause
    · rw [label_outflows h] at hl ⊢
      exact ⟨_, outflowOf_unitAt catalogue hnames hn ht hk hw hinputs hl⟩
    · exact outflowOf_zero hk

theorem isConst_sizeRows (hw : Wired nodes) (hr : n.sizeRows steps hours f = .ok rows) :
    ∀ d ∈ rows, d.expr.isConst = false := by
  intro d hd
  unfold sizeRows at hr
  rw [h.size, sizeIn] at hr
  by_cases hsize : n.hasSize = true
  · rw [if_pos hsize] at hr
    dsimp only at hr
    split at hr
    · rw [← Except.ok.inj hr] at hd
      exact absurd hd List.not_mem_nil
    · split at hr
      · exact absurd hr (by simp)
      · rw [← Except.ok.inj hr] at hd
        obtain ⟨t, ht, rfl⟩ := mem_rowsOver.1 hd
        exact isConst_excessAt hnames hn h hw hsize ht hours _
  · rw [if_neg hsize] at hr
    rw [← Except.ok.inj hr] at hd
    exact absurd hd List.not_mem_nil

/-- No condition of a node is without columns. -/
theorem isConst_rows (hw : Wired nodes) (hbuilt : ∀ n ∈ nodes, n.Built)
    (hr : .ok rows ∈ n.rows catalogue steps hours f) : ∀ d ∈ rows, d.expr.isConst = false := by
  unfold Node.rows at hr
  rcases List.mem_append.1 hr with hr | hr
  · intro d hd
    obtain ⟨output, ho, hr⟩ := List.mem_map.1 hr
    rw [mem_distinct, map_commodity_outflows h] at ho
    obtain ⟨inputs, factor, hconv, rfl⟩ := balanceRows_eq_ok_iff.1 hr
    obtain ⟨t, ht, rfl⟩ := mem_rowsOver.1 hd
    exact isConst_balanceAt_of_wired hw hnames hn (hbuilt n hn) h ho hconv ht
  · simp only [List.mem_cons, List.not_mem_nil, or_false] at hr
    rcases hr with hr | hr | hr | hr
    · rw [Except.ok.inj hr]
      cases hstorage : n.storage with
      | none => simp [storageRows, hstorage]
      | some s =>
        exact Constraint.isConst_of_states (states_storageRows hnames hn h hstorage) fun _ =>
          exists_excess_storageClauses hnames hn hstorage
    · exact isConst_proportionRows_input hnames hn h (hbuilt n hn) hr.symm
    · exact isConst_proportionRows_output hnames hn h hw hbuilt hr.symm
    · exact isConst_sizeRows hnames hn h hw hr.symm

end Rows

end Node

/-! ## How many clauses there are -/

/-- What belongs together in the list of the clauses of a node. -/
inductive Family
  | balance
  | storage
  | proportion (side : Direction)
  | size
  deriving DecidableEq

def Subject.family : Subject → Family
  | balance _ => .balance
  | chargeLimit | dischargeLimit | levelLimit | levelBalance => .storage
  | proportion side _ => .proportion side
  | sizeLimit => .size

namespace Clause

def key (clause : Clause) : Subject × Nat := (clause.subject, clause.step)

section OverSteps

variable {steps : Nat} {subject : Subject} {name : String} {relation : Relation}
variable {excess : Nat → Operation → Rat} {clause : Clause}

theorem subject_of_mem_overSteps (h : clause ∈ overSteps steps subject name relation excess) :
    clause.subject = subject := by
  obtain ⟨t, -, rfl⟩ := List.mem_map.1 h
  rfl

theorem length_overSteps : (overSteps steps subject name relation excess).length = steps := by
  simp [overSteps]

theorem nodup_overSteps : ((overSteps steps subject name relation excess).map key).Nodup := by
  unfold overSteps
  rw [List.map_map]
  exact List.nodup_range.map fun t t' h => (Prod.mk.inj h).2

end OverSteps

end Clause

namespace Node

section Sections

variable (nodes : List (Node Rat)) (catalogue : Catalogue Rat) (hours : Rat) (steps : Nat)

def proportions (n : Node Rat) : Direction → Option (Keyed (Quantity Rat))
  | .input => n.inputProportions
  | .output => n.outputProportions

/-- How many clauses of a family a node has. -/
def clauseCount (n : Node Rat) : Family → Nat
  | .balance => (distinct (outputNames nodes n)).length * steps
  | .storage => if n.storage.isSome then 4 * steps else 0
  | .proportion side => (n.proportions side).elim 0 fun ratios => (ratios.entries.length - 1) * steps
  | .size => if n.hasSize ∧ n.kind ≠ .scalableInput then steps else 0

/-- The clauses of a node by families. -/
def sections (n : Node Rat) : List (Family × List Clause) :=
  [(.balance,
      (distinct (outputNames nodes n)).flatMap (n.balanceClauses nodes catalogue hours steps)),
    (.storage, n.storage.elim [] (n.storageClauses hours steps)),
    (.proportion .input, n.inputProportions.elim []
      (n.proportionClauses catalogue steps .input (inLabels nodes n) Operation.inflow)),
    (.proportion .output, n.outputProportions.elim []
      (n.proportionClauses catalogue steps .output (outLabels nodes n) Operation.outflow)),
    (.size, n.sizeClauses nodes hours steps)]

theorem clauses_eq_flatMap (n : Node Rat) : n.clauses nodes catalogue hours steps =
    (n.sections nodes catalogue hours steps).flatMap Prod.snd := by
  simp [clauses, sections]

end Sections

/-! ### The clauses of a family -/

section Family

variable {nodes : List (Node Rat)} {catalogue : Catalogue Rat} {hours : Rat} {steps : Nat}
variable {n : Node Rat} {clause : Clause}

/-- What is common to the clauses of a family: they are of the family, they differ in their keys,
and there are so many. -/
structure Lists (family : Family) (count : Nat) (l : List Clause) : Prop where
  family_eq : ∀ clause ∈ l, clause.subject.family = family
  nodup : (l.map Clause.key).Nodup
  length_eq : l.length = count

theorem Lists.countP_eq {family : Family} {count : Nat} {l : List Clause} (h : Lists family count l)
    (family' : Family) :
    l.countP (·.subject.family = family') = if family = family' then count else 0 := by
  split
  · next heq => exact (List.countP_eq_length.2 (by simpa [heq] using h.family_eq)).trans h.length_eq
  · next hne =>
    refine List.countP_eq_zero.2 fun clause hclause => ?_
    rw [h.family_eq clause hclause, decide_eq_true_eq]
    exact hne

theorem lists_nil (family : Family) : Lists family 0 [] := ⟨nofun, List.nodup_nil, rfl⟩

/-- One clause for each step and each of some subjects. -/
theorem lists_flatMap {α : Type} {l : List α} {f : α → List Clause} {family : Family}
    (subject : α → Subject) (hl : (l.map subject).Nodup)
    (hfamily : ∀ a, (subject a).family = family) (hf : ∀ a ∈ l, ∃ name relation excess,
      f a = Clause.overSteps steps (subject a) name relation excess) :
    Lists family (l.length * steps) (l.flatMap f) := by
  have hsubject : ∀ a ∈ l, ∀ clause ∈ f a, clause.subject = subject a := by
    intro a ha clause hclause
    obtain ⟨name, relation, excess, he⟩ := hf a ha
    exact Clause.subject_of_mem_overSteps (he ▸ hclause)
  refine ⟨fun clause hclause => ?_, ?_, ?_⟩
  · obtain ⟨a, ha, hclause⟩ := List.mem_flatMap.1 hclause
    rw [hsubject a ha clause hclause, hfamily]
  · refine nodup_map_flatMap Prod.fst subject hl (fun a ha => ?_) hsubject
    obtain ⟨name, relation, excess, he⟩ := hf a ha
    rw [he]
    exact Clause.nodup_overSteps
  · have hlength : ∀ a ∈ l, (f a).length = steps := fun a ha => by
      obtain ⟨name, relation, excess, he⟩ := hf a ha
      rw [he, Clause.length_overSteps]
    rw [List.length_flatMap, List.map_congr_left hlength, List.map_const', List.sum_replicate,
      smul_eq_mul]

theorem lists_balanceClauses : Lists .balance (n.clauseCount nodes steps .balance)
    ((distinct (outputNames nodes n)).flatMap (n.balanceClauses nodes catalogue hours steps)) := by
  refine lists_flatMap Subject.balance ?_ (fun _ => rfl) fun output _ => ⟨_, _, _, rfl⟩
  exact ((pairwise_distinct _).imp fun h => h.ne).map Subject.balance fun _ _ h he =>
    h (Subject.balance.inj he)

theorem lists_storageClauses : Lists .storage (n.clauseCount nodes steps .storage)
    (n.storage.elim [] (n.storageClauses hours steps)) := by
  unfold clauseCount
  cases n.storage with
  | none => exact lists_nil _
  | some s =>
    refine ⟨fun clause hclause => ?_, ?_, ?_⟩
    · obtain ⟨t, -, hclause⟩ := List.mem_flatMap.1 hclause
      simp only [List.mem_cons, List.not_mem_nil, or_false] at hclause
      rcases hclause with rfl | rfl | rfl | rfl <;> rfl
    · refine nodup_map_flatMap Prod.snd id ?_ (fun t _ => ?_) fun t _ clause hclause => ?_
      · rw [List.map_id]
        exact List.nodup_range
      · simp [levelBalanceClause, storageClause, Clause.key]
      · simp only [List.mem_cons, List.not_mem_nil, or_false] at hclause
        rcases hclause with rfl | rfl | rfl | rfl <;> rfl
    · simp [storageClauses, mul_comm]

theorem lists_proportionClauses {side : Direction} {labels : List Label}
    {flow : Operation → Nat → Label → Rat} :
    Lists (.proportion side) (n.clauseCount nodes steps (.proportion side))
      ((n.proportions side).elim [] (n.proportionClauses catalogue steps side labels flow)) := by
  unfold clauseCount
  dsimp only
  cases n.proportions side with
  | none => exact lists_nil _
  | some ratios =>
    have hascending := ratios.ascending
    dsimp only [Option.elim]
    unfold proportionClauses
    generalize ratios.entries = entries at hascending ⊢
    cases entries with
    | nil =>
      rw [List.length_nil, Nat.zero_sub, Nat.zero_mul]
      exact lists_nil _
    | cons first others =>
      refine lists_flatMap (fun e => .proportion side e.1) ?_ (fun _ => rfl) fun e _ =>
        ⟨_, _, _, rfl⟩
      exact (List.pairwise_cons.1 hascending).2.map _ fun _ _ h he =>
        h.ne (Subject.proportion.inj he).2

theorem lists_sizeClauses : Lists .size (n.clauseCount nodes steps .size)
    (n.sizeClauses nodes hours steps) := by
  unfold sizeClauses clauseCount
  dsimp only
  split
  · refine ⟨fun clause hclause => ?_, Clause.nodup_overSteps, Clause.length_overSteps⟩
    rw [Clause.subject_of_mem_overSteps hclause]
    rfl
  · exact lists_nil _

/-- Each section of the clauses holds the clauses of its family. -/
theorem lists_sections : ∀ p ∈ n.sections nodes catalogue hours steps,
    Lists p.1 (n.clauseCount nodes steps p.1) p.2 := by
  simp only [sections, List.forall_mem_cons]
  exact ⟨lists_balanceClauses, lists_storageClauses, lists_proportionClauses,
    lists_proportionClauses, lists_sizeClauses, nofun⟩

/-- Each clause is in the section of its family. -/
theorem exists_section (hclause : clause ∈ n.clauses nodes catalogue hours steps) :
    ∃ l, (clause.subject.family, l) ∈ n.sections nodes catalogue hours steps ∧ clause ∈ l := by
  rw [clauses_eq_flatMap] at hclause
  obtain ⟨p, hp, hmem⟩ := List.mem_flatMap.1 hclause
  rw [(lists_sections p hp).family_eq clause hmem]
  exact ⟨p.2, hp, hmem⟩

theorem nodup_families : ((n.sections nodes catalogue hours steps).map Prod.fst).Nodup :=
  show [Family.balance, .storage, .proportion .input, .proportion .output, .size].Nodup by decide

/-- No clause of a node is stated twice. -/
theorem nodup_key_clauses : ((n.clauses nodes catalogue hours steps).map Clause.key).Nodup := by
  rw [clauses_eq_flatMap]
  exact nodup_map_flatMap (fun key => key.1.family) Prod.fst nodup_families
    (fun p hp => (lists_sections p hp).nodup) fun p hp => (lists_sections p hp).family_eq

/-- So many clauses does a node have of a family. -/
theorem countP_clauses (family : Family) :
    (n.clauses nodes catalogue hours steps).countP (·.subject.family = family) =
      n.clauseCount nodes steps family := by
  have hsections := List.map_congr_left fun p (hp : p ∈ n.sections nodes catalogue hours steps) =>
    (lists_sections p hp).countP_eq family
  rw [clauses_eq_flatMap, List.countP_flatMap]
  refine (congrArg List.sum hsections).trans ?_
  rcases family with _ | _ | (_ | _) | _ <;> simp [sections]

end Family

end Node

/-! ## All conditions of a network -/

/-- The clauses of all nodes, each beside its node. -/
def clausesOf (nodes : List (Node Rat)) (catalogue : Catalogue Rat) (hours : Rat) (steps : Nat) :
    List (Node Rat × Clause) :=
  nodes.flatMap fun n => (n.clauses nodes catalogue hours steps).map (n, ·)

/-- If all conditions have columns, a model stores all of them. -/
theorem Constraint.stored_eq_map {cs : List (Constraint Rat)}
    (h : ∀ c ∈ cs, c.expr.isConst = false) : stored cs = cs.map normalized := by
  unfold stored
  rw [List.filter_eq_self.2 fun c hc => by rw [h c hc, Bool.not_false]]

section Network

variable {nodes : List (Node Rat)} {grid : Grid} {config : Config Rat} {net : Network Rat}

/-- What is made of a node states the clauses of the node, and all of it has columns. -/
theorem Node.Makes.states {currency : Measure.Unit Rat} {n : Node Rat} {p : Part Rat}
    (hp : n.Makes nodes grid config currency p) (hw : Wired nodes)
    (hnames : ((variableKeys nodes).map (·.name)).Nodup) (hbuilt : ∀ n ∈ nodes, n.Built)
    (hn : n ∈ nodes) :
    List.Forall₂ (fun clause d =>
        d.States (n.operation config.catalogue (registry nodes grid.size)) clause)
      (n.clauses nodes config.catalogue grid.hours grid.size) p.rows.flatten ∧
    ∀ d ∈ p.rows.flatten, d.expr.isConst = false := by
  have hbound := hp.bound hw hn
  refine ⟨states_rows hnames hn hbound hp.rows, fun d hd => ?_⟩
  obtain ⟨rows, hrows, hd⟩ := List.mem_flatten.1 hd
  exact isConst_rows hnames hn hbound hw hbuilt (hp.rows ▸ List.mem_map_of_mem hrows) d hd

/-- The keys of all clauses tell them apart, as the names of the nodes differ. -/
theorem nodup_key_clausesOf {catalogue : Catalogue Rat} {hours : Rat} {steps : Nat}
    (hw : Wired nodes) :
    ((clausesOf nodes catalogue hours steps).map fun p => (p.1.name, p.2.key)).Nodup := by
  refine nodup_map_flatMap Prod.fst Node.name hw.names_nodup (fun n _ => ?_) fun n _ p hp => ?_
  · rw [List.map_map]
    exact List.Nodup.of_map Prod.snd (by
      rw [List.map_map]
      exact Node.nodup_key_clauses)
  · obtain ⟨clause, -, rfl⟩ := List.mem_map.1 hp
    rfl

theorem Compiled.forall₂_states {cs : List NodeCommodities} {groups : List (Rows Rat)}
    (hc : Compiled nodes grid config cs groups net) (hbuilt : ∀ n ∈ nodes, n.Built) :
    List.Forall₂ (fun p d => d.States (p.1.operation config.catalogue net.model) p.2 ∧
        d.expr.isConst = false)
      (clausesOf nodes config.catalogue grid.hours grid.size) net.model.constraints.toList := by
  obtain ⟨currency, parts, -, hparts, rfl⟩ := hc.exists_parts
  have hstates := forall₂_imp_of_mem hparts fun n hn p hp =>
    hp.states hc.wired hc.names_nodup hbuilt hn
  have hconst : ∀ d ∈ (parts.flatMap (·.rows)).flatten, d.expr.isConst = false := by
    intro d hd
    obtain ⟨rows, hrows, hd⟩ := List.mem_flatten.1 hd
    obtain ⟨p, hp, hrows⟩ := List.mem_flatMap.1 hrows
    obtain ⟨n, -, -, hall⟩ := exists_of_mem_forall₂ hstates.flip hp
    exact hall d (List.mem_flatten.2 ⟨rows, hrows, hd⟩)
  have hstored : (Constraint.stored (parts.flatMap (·.rows)).flatten).toArray.toList =
      parts.flatMap fun p => p.rows.flatten.map Constraint.normalized := by
    rw [Constraint.stored_eq_map hconst, List.flatMap_def, List.flatten_flatten, List.map_flatten,
      List.map_map, List.map_map]
    rfl
  unfold clausesOf Network.assembled
  rw [hstored]
  refine List.rel_flatMap hstates fun n p hp => ?_
  rw [List.forall₂_map_left_iff, List.forall₂_map_right_iff]
  refine List.forall₂_iff_zip.2 ⟨hp.1.length_eq, fun {clause d} hmem => ?_⟩
  have hcolumns : d.normalized.expr.isConst = false := hp.2 d (List.of_mem_zip hmem).2
  exact ⟨((List.forall₂_iff_zip.1 hp.1).2 hmem).normalized, hcolumns⟩

theorem Compiled.exists_states {cs : List NodeCommodities} {groups : List (Rows Rat)}
    (hc : Compiled nodes grid config cs groups net) (hbuilt : ∀ n ∈ nodes, n.Built) {n : Node Rat}
    (hn : n ∈ nodes) {clause : Clause}
    (hclause : clause ∈ n.clauses nodes config.catalogue grid.hours grid.size) :
    ∃ c ∈ net.model.constraints, c.States (n.operation config.catalogue net.model) clause := by
  have hmem : (n, clause) ∈ clausesOf nodes config.catalogue grid.hours grid.size :=
    List.mem_flatMap.2 ⟨n, hn, List.mem_map_of_mem hclause⟩
  obtain ⟨c, hc, hstates, -⟩ := exists_of_mem_forall₂ (hc.forall₂_states hbuilt) hmem
  exact ⟨c, Array.mem_toList_iff.1 hc, hstates⟩

/-- The conditions of a network state the clauses of its nodes, one after the other, so that none is
left out and none is without columns. No clause is stated twice, and of each family there are so many
as a node needs. -/
theorem Network.states_clauses (hbuilt : ∀ n ∈ nodes, n.Built)
    (h : Network.build nodes grid config = .ok net) :
    List.Forall₂ (fun p d => d.States (p.1.operation config.catalogue net.model) p.2 ∧
        d.expr.isConst = false)
      (clausesOf nodes config.catalogue grid.hours grid.size) net.model.constraints.toList ∧
    ((clausesOf nodes config.catalogue grid.hours grid.size).map
      fun p => (p.1.name, p.2.key)).Nodup ∧
    ∀ n ∈ nodes, ∀ family,
      (n.clauses nodes config.catalogue grid.hours grid.size).countP (·.subject.family = family) =
        n.clauseCount nodes grid.size family := by
  obtain ⟨cs, groups, hc⟩ := Network.build_eq_ok_iff.1 h
  exact ⟨hc.forall₂_states hbuilt, nodup_key_clausesOf hc.wired, fun n _ => Node.countP_clauses⟩

theorem states_windNetwork :
    ∃ net, Network.build (builtNodes windDrafts) windGrid .standard = .ok net ∧
      net.model.constraints.size = 14 ∧
      List.Forall₂ (fun p d => d.States (p.1.operation Config.standard.catalogue net.model) p.2 ∧
          d.expr.isConst = false)
        (clausesOf (builtNodes windDrafts) Config.standard.catalogue windGrid.hours windGrid.size)
        net.model.constraints.toList := by
  obtain ⟨net, h⟩ := exists_windNetwork
  obtain ⟨hstates, -⟩ := Network.states_clauses (fun _ hn => built_of_mem hn) h
  refine ⟨net, h, ?_, hstates⟩
  rw [← Array.length_toList, ← hstates.length_eq]
  decide +kernel

end Network

end SupplyNet
