import Mathlib
import SupplyNet.Linear.Simplex
import SupplyNet.Linear.Solution
import SupplyNet.Proofs.Linear.Constraints
import SupplyNet.Proofs.Linear.Prices
import SupplyNet.Proofs.Linear.Registry

/-!
Solving a model. A solver is given a program column by column: a lower bound or none, a row of
coefficients for each condition, and a row of costs. What is optimal for it is what the model allows
at the least costs, and the solution gives the values of all variables under their names.
-/
set_option autoImplicit false

namespace SupplyNet

/-! ## Rows of coefficients -/

namespace LinearExpr

/-- Each column once and in order, and none past the last. -/
structure Over (size : Nat) (e : LinearExpr Rat) : Prop where
  ascending : e.terms.Pairwise fun s t => s.1.index < t.1.index
  index_lt : ∀ t ∈ e.terms, t.1.index < size

theorem over_zero (size : Nat) : Over size 0 :=
  ⟨List.Pairwise.nil, fun _ h => absurd h List.not_mem_nil⟩

theorem Over.mono {size size' : Nat} {e : LinearExpr Rat} (h : e.Over size) (hsize : size ≤ size') :
    e.Over size' :=
  ⟨h.ascending, fun t ht => (h.index_lt t ht).trans_le hsize⟩

/-- Only the columns of an expression count for its value. -/
theorem Over.eval_congr {size : Nat} {e : LinearExpr Rat} (h : e.Over size) {x y : Var → Rat}
    (hxy : ∀ v : Var, v.index < size → x v = y v) : e.eval x = e.eval y := by
  rw [eval_eq, eval_eq]
  unfold weight weightOf
  rw [List.map_congr_left fun t ht => by rw [hxy t.1 (h.index_lt t ht)]]

end LinearExpr

namespace Linear

/-- The value of a row of `n` coefficients. -/
def rowValue (n : Nat) (coeffs values : Array Rat) : Rat :=
  ∑ i ∈ Finset.range n, coeffs[i]?.getD 0 * values[i]?.getD 0

theorem rowValue_replicate (n : Nat) (values : Array Rat) :
    rowValue n (Array.replicate n 0) values = 0 := by
  refine Finset.sum_eq_zero fun i hi => ?_
  rw [Array.getElem?_replicate, if_pos (Finset.mem_range.1 hi), Option.getD_some, zero_mul]

/-- A coefficient in place of a zero. -/
theorem rowValue_set {n : Nat} {coeffs : Array Rat} (hsize : coeffs.size = n) {i : Nat}
    (hi : i < n) (hzero : coeffs[i]?.getD 0 = 0) (a : Rat) (values : Array Rat) :
    rowValue n (coeffs.setIfInBounds i a) values =
      rowValue n coeffs values + a * values[i]?.getD 0 := by
  have hterm : ∀ j ∈ Finset.range n, (coeffs.setIfInBounds i a)[j]?.getD 0 * values[j]?.getD 0 =
      coeffs[j]?.getD 0 * values[j]?.getD 0 + if j = i then a * values[i]?.getD 0 else 0 := by
    intro j _
    rw [Array.getElem?_setIfInBounds]
    by_cases hj : i = j
    · subst hj
      rw [if_pos rfl, if_pos (hsize ▸ hi), if_pos rfl, hzero, Option.getD_some]
      ring
    · rw [if_neg hj, if_neg (Ne.symm hj), add_zero]
  unfold rowValue
  rw [Finset.sum_congr rfl hterm, Finset.sum_add_distrib, Finset.sum_ite_eq',
    if_pos (Finset.mem_range.2 hi)]

/-- Terms of different columns are written over zeros. -/
theorem rowValue_foldl {n : Nat} {terms : List (Var × Rat)}
    (hterms : terms.Pairwise fun s t => s.1.index < t.1.index)
    (hindex : ∀ t ∈ terms, t.1.index < n) {coeffs : Array Rat} (hsize : coeffs.size = n)
    (hzero : ∀ t ∈ terms, coeffs[t.1.index]?.getD 0 = 0) (values : Array Rat) :
    rowValue n (terms.foldl (fun coeffs t => coeffs.setIfInBounds t.1.index t.2) coeffs) values =
      rowValue n coeffs values + LinearExpr.weightOf (assignment values) terms := by
  induction terms generalizing coeffs with
  | nil => simp [LinearExpr.weightOf]
  | cons t terms ih =>
    obtain ⟨hlt, hterms⟩ := List.pairwise_cons.1 hterms
    obtain ⟨hi, hindex⟩ := List.forall_mem_cons.1 hindex
    obtain ⟨ht, hzero⟩ := List.forall_mem_cons.1 hzero
    have hrest : ∀ u ∈ terms,
        (coeffs.setIfInBounds t.1.index t.2)[u.1.index]?.getD 0 = 0 := by
      intro u hu
      rw [Array.getElem?_setIfInBounds, if_neg (hlt u hu).ne]
      exact hzero u hu
    rw [List.foldl_cons, ih hterms hindex (by rw [Array.size_setIfInBounds, hsize]) hrest,
      rowValue_set hsize hi ht, LinearExpr.weightOf_cons, add_assoc]
    rfl

/-- A row has the value of its expression, but for the constant. -/
theorem rowValue_denseOf {n : Nat} {e : LinearExpr Rat} (h : e.Over n) (values : Array Rat) :
    rowValue n (denseOf n e) values = e.eval (assignment values) - e.const := by
  unfold denseOf
  rw [rowValue_foldl h.ascending h.index_lt (by simp) (fun t ht => by simp [h.index_lt t ht]),
    rowValue_replicate, LinearExpr.eval_eq]
  unfold LinearExpr.weight
  ring

end Linear

/-! ## Programs column by column -/

def Relation.Relates : Relation → Rat → Rat → Prop
  | .eq, a, b => a = b
  | .le, a, b => a ≤ b
  | .ge, a, b => b ≤ a

theorem Constraint.holds_iff_relates (c : Constraint Rat) (x : Var → Rat) :
    c.Holds x ↔ c.relation.Relates (c.expr.eval x) c.rhs := by
  unfold Holds
  cases c.relation <;> rfl

namespace Program

variable (p : Program Rat)

/-- Values, one for each column, that keep to the bounds and meet the rows. -/
structure Meets (values : Array Rat) : Prop where
  size : values.size = p.lowers.size
  bounds : ∀ (i : Nat) l, p.lowers[i]? = some (some l) → l ≤ values[i]?.getD 0
  rows : ∀ c ∈ p.constraints, c.relation.Relates
    (Linear.rowValue p.lowers.size (Linear.denseOf p.lowers.size c.expr) values) c.rhs

/-- The costs of all columns. -/
def cost (values : Array Rat) : Rat :=
  Linear.rowValue p.lowers.size (Linear.denseOf p.lowers.size p.objective) values

/-- All expressions are over the columns, and no condition has a constant on its left side. -/
structure Formed : Prop where
  rows : ∀ c ∈ p.constraints, c.expr.Over p.lowers.size ∧ c.expr.const = 0
  objective : p.objective.Over p.lowers.size

/-- The values of an assignment, one for each column. -/
def valuesOf (x : Var → Rat) : Array Rat := (Array.range p.lowers.size).map fun i => x ⟨i⟩

theorem assignment_valuesOf (x : Var → Rat) {v : Var} (hv : v.index < p.lowers.size) :
    assignment (p.valuesOf x) v = x v := by
  simp [assignment, valuesOf, hv]

variable {p} {x : Var → Rat} {values : Array Rat} (h : p.Formed)

include h

theorem Formed.meets_iff :
    p.Meets values ↔ values.size = p.lowers.size ∧ p.Feasible (assignment values) := by
  have hrow : ∀ c ∈ p.constraints, c.relation.Relates
      (Linear.rowValue p.lowers.size (Linear.denseOf p.lowers.size c.expr) values) c.rhs ↔
        c.Holds (assignment values) := by
    intro c hc
    obtain ⟨hover, hconst⟩ := h.rows c hc
    rw [Linear.rowValue_denseOf hover, hconst, sub_zero, c.holds_iff_relates]
  exact ⟨fun hm => ⟨hm.size, hm.bounds, fun c hc => (hrow c hc).1 (hm.rows c hc)⟩,
    fun hf => ⟨hf.1, hf.2.1, fun c hc => (hrow c hc).2 (hf.2.2 c hc)⟩⟩

theorem Formed.cost_eq (values : Array Rat) :
    p.cost values = p.objective.eval (assignment values) - p.objective.const :=
  Linear.rowValue_denseOf h.objective values

theorem Formed.objective_valuesOf (x : Var → Rat) :
    p.objective.eval (assignment (p.valuesOf x)) = p.objective.eval x :=
  h.objective.eval_congr fun _ => p.assignment_valuesOf x

/-- Columns that do not exist make no difference. -/
theorem Formed.meets_valuesOf (hx : p.Feasible x) : p.Meets (p.valuesOf x) := by
  refine h.meets_iff.2 ⟨by simp [valuesOf], fun i l hl => ?_, fun c hc => ?_⟩
  · rw [p.assignment_valuesOf x (Array.getElem?_eq_some_iff.1 hl).1]
    exact hx.1 i l hl
  · rw [c.holds_iff_relates,
      (h.rows c hc).1.eval_congr fun _ => p.assignment_valuesOf x, ← c.holds_iff_relates]
    exact hx.2 c hc

end Program

/-- A solver that is right about a program, whatever it answers. -/
def Solver.CorrectAt (solver : Solver Rat) (p : Program Rat) : Prop :=
  match solver p with
  | .optimal values => p.Meets values ∧ ∀ others, p.Meets others → p.cost values ≤ p.cost others
  | .infeasible => ∀ values, ¬p.Meets values
  | .unbounded => ∀ bound, ∃ values, p.Meets values ∧ p.cost values < bound
  | .failed _ => True

namespace Program.Formed

variable {p : Program Rat} {solver : Solver Rat} (h : p.Formed)

include h

theorem minimal_iff {values : Array Rat} (hsize : values.size = p.lowers.size) :
    (p.Meets values ∧ ∀ others, p.Meets others → p.cost values ≤ p.cost others) ↔
      p.Minimal (assignment values) := by
  constructor
  · rintro ⟨hmeets, hleast⟩
    refine ⟨(h.meets_iff.1 hmeets).2, fun y hy => ?_⟩
    have hcost := hleast _ (h.meets_valuesOf hy)
    rwa [h.cost_eq, h.cost_eq, h.objective_valuesOf, sub_le_sub_iff_right] at hcost
  · rintro ⟨hfeasible, hleast⟩
    refine ⟨h.meets_iff.2 ⟨hsize, hfeasible⟩, fun others hothers => ?_⟩
    rw [h.cost_eq, h.cost_eq, sub_le_sub_iff_right]
    exact hleast _ (h.meets_iff.1 hothers).2

variable (hsolver : solver.CorrectAt p)

include hsolver

theorem minimal_of_optimal {values : Array Rat} (ho : solver p = .optimal values) :
    values.size = p.lowers.size ∧ p.Minimal (assignment values) := by
  unfold Solver.CorrectAt at hsolver
  rw [ho] at hsolver
  have hsize := hsolver.1.size
  exact ⟨hsize, (h.minimal_iff hsize).1 hsolver⟩

theorem not_feasible_of_infeasible (ho : solver p = .infeasible) (x : Var → Rat) :
    ¬p.Feasible x := by
  unfold Solver.CorrectAt at hsolver
  rw [ho] at hsolver
  exact fun hx => hsolver _ (h.meets_valuesOf hx)

theorem unbounded_of_unbounded (ho : solver p = .unbounded) : p.Unbounded := by
  unfold Solver.CorrectAt at hsolver
  rw [ho] at hsolver
  intro bound
  obtain ⟨values, hmeets, hcost⟩ := hsolver (bound - p.objective.const)
  rw [h.cost_eq, sub_lt_sub_iff_right] at hcost
  exact ⟨_, (h.meets_iff.1 hmeets).2, hcost⟩

end Program.Formed

/-! ## Reachable models -/

namespace Model

/-- Assignments that keep to the lower bounds of the columns and meet all conditions. -/
structure Allows (m : Model Rat) (x : Var → Rat) : Prop where
  bounds : ∀ i column l, m.columns[i]? = some column → column.lower = some l → l ≤ x ⟨i⟩
  conditions : ∀ c ∈ m.constraints, c.Holds x

/-- A model that is set up step by step, with expressions over the columns that it has. -/
inductive Reachable : Model Rat → Prop
  | empty : Reachable .empty
  | addScalar {m m' : Model Rat} {name : String} {lower : Option Rat} {v : Var}
      (h : Reachable m) (hadd : m.addScalar name lower = .ok (v, m')) : Reachable m'
  | addSeries {m m' : Model Rat} {name : String} {lower : Option Rat} {size : Nat}
      {vs : Array Var} (h : Reachable m) (hadd : m.addSeries name lower size = .ok (vs, m')) :
      Reachable m'
  | addConstraint {m m' : Model Rat} {c : Constraint Rat} (h : Reachable m)
      (hc : c.expr.Over m.columns.size) (hadd : m.addConstraint c = .ok m') : Reachable m'
  | setObjective {m : Model Rat} {e : LinearExpr Rat} (h : Reachable m)
      (he : e.Over m.columns.size) : Reachable { m with objective := e }

variable {m : Model Rat}

/-- Over exact numbers every optimum that a solver reports is a solution. -/
theorem solution_eq_ok (m : Model Rat) (values : Array Rat) :
    m.solution values = .ok ⟨values, m.objective.eval (assignment values), m.named⟩ := by
  have hfinite : values.findIdx? (fun q => !Scalar.isFinite q) = none := by
    rw [Array.findIdx?_eq_none_iff]
    exact fun q _ => rfl
  unfold solution
  rw [hfinite]
  rfl

theorem program_lowers_size (m : Model Rat) : m.program.lowers.size = m.columns.size :=
  Array.size_map

/-- What a solver is given says of its columns what the model says of them. -/
theorem feasible_program_iff {x : Var → Rat} : m.program.Feasible x ↔ m.Allows x := by
  unfold program Program.Feasible
  simp only [Array.getElem?_map, Option.map_eq_some_iff]
  exact ⟨fun h => ⟨fun i column l hi hl => h.1 i l ⟨column, hi, hl⟩, h.2⟩,
    fun h => ⟨fun i l ⟨column, hi, hl⟩ => h.bounds i column l hi hl, h.conditions⟩⟩

theorem formed_push (b : Block Rat) (h : m.program.Formed) : (m.push b).program.Formed := by
  have hsize : m.program.lowers.size ≤ (m.push b).program.lowers.size := by
    rw [program_lowers_size, program_lowers_size, size_push]
    exact Nat.le_add_right _ _
  exact ⟨fun c hc => ⟨(h.rows c hc).1.mono hsize, (h.rows c hc).2⟩, h.objective.mono hsize⟩

theorem formed_stored {c : Constraint Rat} (hc : c.expr.Over m.columns.size)
    (h : m.program.Formed) : ({ m with constraints := m.constraints ++
      (Constraint.stored [c]).toArray } : Model Rat).program.Formed := by
  refine ⟨fun d hd => ?_, h.objective⟩
  rcases Array.mem_append.1 hd with hd | hd
  · exact h.rows d hd
  · obtain ⟨d', hd', -, rfl⟩ := Constraint.mem_stored.1 (List.mem_toArray.1 hd)
    rw [List.mem_singleton.1 hd']
    refine ⟨?_, rfl⟩
    rw [program_lowers_size]
    exact ⟨hc.ascending, hc.index_lt⟩

theorem Reachable.push (h : m.Reachable) {b : Block Rat} (hb : b.name ∉ m.names) :
    (m.push b).Reachable := by
  obtain ⟨name, lower, steps⟩ := b
  cases steps with
  | none => exact h.addScalar (by rw [addScalar_eq, if_neg hb])
  | some size => exact h.addSeries (by rw [addSeries_eq, if_neg hb])

theorem Reachable.extend (h : m.Reachable) {bs : List (Block Rat)} (hbs : m.Fresh bs) :
    (m.extend bs).Reachable := by
  induction bs generalizing m with
  | nil => exact h
  | cons b bs ih =>
    obtain ⟨hb, hrest⟩ := (fresh_append m [b] bs).1 hbs
    exact ih (h.push ((fresh_singleton m b).1 hb)) hrest

theorem Reachable.addConstraints {cs : List (Constraint Rat)} (h : m.Reachable)
    (hcs : ∀ c ∈ cs, c.expr.Over m.columns.size) {m' : Model Rat}
    (hadd : m.addConstraints cs = .ok m') : m'.Reachable := by
  unfold Model.addConstraints at hadd
  induction cs generalizing m with
  | nil =>
    obtain rfl : m = m' := Except.ok.inj hadd
    exact h
  | cons c cs ih =>
    obtain ⟨hc, hcs⟩ := List.forall_mem_cons.1 hcs
    rw [List.foldlM_cons] at hadd
    obtain ⟨m₁, h₁, hadd⟩ := bind_eq_ok_iff.1 hadd
    have hcolumns : m₁.columns = m.columns := by
      rw [(addConstraint_eq_ok_iff.1 h₁).2]
    exact ih (h.addConstraint hc h₁) (hcolumns.symm ▸ hcs) hadd

/-- Every step keeps the registry consistent and all expressions over the columns. -/
theorem Reachable.invariant (h : m.Reachable) : m.Consistent ∧ m.program.Formed := by
  induction h with
  | empty =>
    exact ⟨consistent_empty, fun c hc => absurd hc (by simp [program, Model.empty]),
      LinearExpr.over_zero _⟩
  | addScalar _ hadd ih =>
    rw [addScalar_eq] at hadd
    split at hadd
    · exact absurd hadd (by simp)
    · next hname =>
      obtain ⟨-, rfl⟩ := Prod.mk.inj (Except.ok.inj hadd)
      exact ⟨ih.1.push hname, formed_push _ ih.2⟩
  | addSeries _ hadd ih =>
    rw [addSeries_eq] at hadd
    split at hadd
    · exact absurd hadd (by simp)
    · next hname =>
      obtain ⟨-, rfl⟩ := Prod.mk.inj (Except.ok.inj hadd)
      exact ⟨ih.1.push hname, formed_push _ ih.2⟩
  | addConstraint _ hc hadd ih =>
    obtain ⟨-, rfl⟩ := addConstraint_eq_ok_iff.1 hadd
    exact ⟨⟨ih.1.names_nodup, ih.1.columns, ih.1.texts⟩, formed_stored hc ih.2⟩
  | @setObjective m e _ he ih =>
    refine ⟨⟨ih.1.names_nodup, ih.1.columns, ih.1.texts⟩, ih.2.rows, ?_⟩
    rw [program_lowers_size]
    exact he

end Model

/-! ## Solutions -/

/-- A solution gives a variable of a model under its name, in the one form that the variable has:
the value of its column, or the values of its columns in their order. -/
inductive Solution.Reports (s : Solution Rat) (m : Model Rat) (name : String) : Prop
  | scalar {v : Var} {q : Rat} (column : m.scalar? name = some v) (value : s.value? name = some q)
      (no_series : s.series? name = none) (entry : s.values[v.index]? = some q)
  | series {vs : Array Var} {qs : Array Rat} (columns : m.series? name = some vs)
      (values : s.series? name = some qs) (no_value : s.value? name = none)
      (entries : qs.toList.map some = vs.toList.map fun v => s.values[v.index]?)

theorem Solution.getElem?_values {s : Solution Rat} {v : Var} (h : v.index < s.values.size) :
    s.values[v.index]? = some (s.valueOf v) := by
  unfold valueOf assignment
  rw [Array.getElem?_eq_getElem h]
  rfl

namespace Model

variable {m : Model Rat}

/-- All columns of a consistent model have values, so all its variables are reported. -/
theorem Consistent.reports (hm : m.Consistent) {s : Solution Rat}
    (hsize : s.values.size = m.columns.size) (hnamed : s.named = m.named) {name : String}
    (h : name ∈ m.names) : s.Reports m name := by
  have hfind : s.find? name = m.find? name := by
    unfold Solution.find?
    rw [hnamed, find?_eq_of_nodup hm.names_nodup]
  have hentry : ∀ {v : Var} {a : Address}, (v, a) ∈ m.places →
      s.values[v.index]? = some (s.valueOf v) := fun hplace =>
    Solution.getElem?_values (hsize ▸ hm.index_lt hplace)
  obtain ⟨x, hx⟩ := find?_isSome_of_mem h
  cases x with
  | scalar v =>
    have hv : m.scalar? name = some v := by
      unfold scalar?
      rw [hx]
    refine .scalar hv ?_ ?_ (hentry (mem_places_of_scalar? hv))
    · unfold Solution.value?
      rw [hfind, hx]
    · unfold Solution.series?
      rw [hfind, hx]
  | series vs =>
    have hvs : m.series? name = some vs := by
      unfold series?
      rw [hx]
    have hvalues : s.series? name = some (vs.map s.valueOf) := by
      unfold Solution.series?
      rw [hfind, hx]
    refine .series hvs hvalues ?_ ?_
    · unfold Solution.value?
      rw [hfind, hx]
    · rw [Array.toList_map, List.map_map]
      refine List.map_congr_left fun v hv => ?_
      obtain ⟨t, ht⟩ := Array.getElem?_of_mem (Array.mem_toList_iff.1 hv)
      exact (hentry (mem_places_of_series? hvs ht)).symm

/-- Solving is faithful to a model. With a solver that is right about its program, a solution has a
value for each column, these are allowed by the model and cost no more than any other values that
are, it tells what they cost, and it gives every variable under its name. Whatever the solver finds
optimal is a solution. A model that is found infeasible allows no values, and one that is found
unbounded allows values of any costs, however low. -/
theorem solve_faithful (hm : m.Reachable) {solver : Solver Rat}
    (hsolver : solver.CorrectAt m.program) :
    (∀ s, m.solve solver = .ok s →
      s.values.size = m.columns.size ∧
      m.Allows (assignment s.values) ∧
      (∀ x, m.Allows x → m.objective.eval (assignment s.values) ≤ m.objective.eval x) ∧
      s.objective = m.objective.eval (assignment s.values) ∧
      ∀ name ∈ m.names, s.Reports m name) ∧
    (∀ values, solver m.program = .optimal values → ∃ s, m.solve solver = .ok s) ∧
    (m.solve solver = .error .infeasible → ∀ x, ¬m.Allows x) ∧
    ∀ cause, m.solve solver = .error (.unbounded cause) →
      ∀ bound, ∃ x, m.Allows x ∧ m.objective.eval x < bound := by
  obtain ⟨hconsistent, hformed⟩ := hm.invariant
  unfold solve
  cases ho : solver m.program with
  | optimal values =>
    obtain ⟨hsize, hfeasible, hleast⟩ := hformed.minimal_of_optimal hsolver ho
    rw [program_lowers_size] at hsize
    dsimp only
    rw [solution_eq_ok]
    refine ⟨fun s hs => ?_, fun _ _ => ⟨_, rfl⟩, fun h => absurd h (by simp),
      fun _ h => absurd h (by simp)⟩
    obtain rfl := Except.ok.inj hs
    exact ⟨hsize, feasible_program_iff.1 hfeasible,
      fun x hx => hleast x (feasible_program_iff.2 hx), rfl,
      fun name hname => hconsistent.reports hsize rfl hname⟩
  | infeasible =>
    exact ⟨fun _ h => absurd h (by simp), fun _ h => absurd h (by simp),
      fun _ x hx => hformed.not_feasible_of_infeasible hsolver ho x (feasible_program_iff.2 hx),
      fun _ h => absurd h (by simp)⟩
  | unbounded =>
    refine ⟨fun _ h => absurd h (by simp), fun _ h => absurd h (by simp),
      fun h => absurd h (by simp), fun _ _ bound => ?_⟩
    obtain ⟨x, hx, hcost⟩ := hformed.unbounded_of_unbounded hsolver ho bound
    exact ⟨x, feasible_program_iff.1 hx, hcost⟩
  | failed reason =>
    exact ⟨fun _ h => absurd h (by simp), fun _ h => absurd h (by simp),
      fun h => absurd h (by simp), fun _ h => absurd h (by simp)⟩

end Model

/-! ## Sizing a wind farm -/

/-- A size, a flow in two steps, a column that is free and never used, and a series of no steps. -/
def sizingBlocks : List (Block Rat) :=
  [⟨"size_wind", some 0, none⟩, ⟨"flow", some 0, some 2⟩, ⟨"spare", none, none⟩,
    ⟨"idle", some 0, some 0⟩]

/-- Five units flow in each step, and no more than half of the size. -/
def sizingRows : List (Constraint Rat) :=
  [⟨"demand[0]", .ofVar ⟨1⟩ + .ofConst 3, .eq, 8⟩, ⟨"demand[1]", .ofVar ⟨2⟩ + .ofConst 3, .eq, 8⟩,
    ⟨"limit[0]", .term ⟨0⟩ (1 / 2) - .ofVar ⟨1⟩, .ge, 0⟩,
    ⟨"limit[1]", .ofVar ⟨2⟩ - .term ⟨0⟩ (1 / 2), .le, 0⟩]

def sizingModel : Model Rat :=
  { Model.empty.extend sizingBlocks with
    constraints := (Constraint.stored sizingRows).toArray
    objective := .term ⟨0⟩ 2 + .ofConst 7 }

theorem reachable_sizingModel : sizingModel.Reachable := by
  have hblocks : (Model.empty.extend sizingBlocks).Reachable :=
    Model.Reachable.empty.extend ⟨by decide, fun _ _ => List.not_mem_nil⟩
  have hrows : ∀ c ∈ sizingRows, c.expr.Over (Model.empty.extend sizingBlocks).columns.size := by
    have hall : ∀ c ∈ sizingRows, (c.expr.terms.Pairwise fun s t => s.1.index < t.1.index) ∧
        ∀ t ∈ c.expr.terms, t.1.index < (Model.empty.extend sizingBlocks).columns.size := by
      decide +kernel
    exact fun c hc => ⟨(hall c hc).1, (hall c hc).2⟩
  have hadmissible : ∀ c ∈ sizingRows, c.Admissible := by
    have hall : ∀ c ∈ sizingRows, c.expr.isConst = false := by decide +kernel
    exact fun c hc hconst => absurd ((hall c hc).symm.trans hconst) (by simp)
  have hadd : (Model.empty.extend sizingBlocks).addConstraints sizingRows = .ok
      { Model.empty.extend sizingBlocks with
        constraints := (Constraint.stored sizingRows).toArray } := by
    have hnone : (Model.empty.extend sizingBlocks).constraints = #[] := rfl
    rw [Model.addConstraints_eq_ok_iff, hnone, Array.empty_append]
    exact ⟨hadmissible, rfl⟩
  have hobjective : sizingModel.objective.Over sizingModel.columns.size :=
    ⟨by decide +kernel, by decide +kernel⟩
  exact (hblocks.addConstraints hrows hadd).setObjective hobjective

/-- The demand costs four in the first step, which pays for the size. -/
theorem minimal_sizingModel : sizingModel.program.Minimal (assignment #[10, 5, 5, 0]) := by
  have hsupports : sizingModel.program.Supports [4, 0, 4, 0] := by decide +kernel
  exact hsupports.minimal (by decide +kernel) (by decide +kernel)

theorem simplex_sizingModel :
    Linear.simplex sizingModel.program = .optimal #[10, 5, 5, 0] := by
  have h : (match Linear.simplex sizingModel.program with
      | .optimal values => decide (values = #[10, 5, 5, 0])
      | _ => false) = true := by
    decide +kernel
  split at h
  · next values hvalues => rw [hvalues, of_decide_eq_true h]
  · exact absurd h Bool.false_ne_true

/-- A size of ten lets five units flow in each step, at costs of twenty and seven. -/
theorem solved_sizingModel : sizingModel.Reachable ∧
    Solver.CorrectAt Linear.simplex sizingModel.program ∧
    ∃ s, sizingModel.solve Linear.simplex = .ok s ∧ s.values = #[10, 5, 5, 0] ∧
      s.objective = 27 ∧ s.values.size = sizingModel.columns.size ∧
      sizingModel.Allows (assignment s.values) ∧
      (∀ x, sizingModel.Allows x →
        sizingModel.objective.eval (assignment s.values) ≤ sizingModel.objective.eval x) ∧
      s.objective = sizingModel.objective.eval (assignment s.values) ∧
      ∀ name ∈ ["size_wind", "flow", "spare", "idle"], s.Reports sizingModel name := by
  have hsolver : Solver.CorrectAt Linear.simplex sizingModel.program := by
    unfold Solver.CorrectAt
    rw [simplex_sizingModel]
    have hsize : (#[10, 5, 5, 0] : Array Rat).size = sizingModel.program.lowers.size := by
      decide +kernel
    exact (reachable_sizingModel.invariant.2.minimal_iff hsize).2 minimal_sizingModel
  have hcosts : sizingModel.objective.eval (assignment #[10, 5, 5, 0]) = 27 := by decide +kernel
  obtain ⟨hsolution, hanswers, -⟩ := Model.solve_faithful reachable_sizingModel hsolver
  obtain ⟨s, hs⟩ := hanswers _ simplex_sizingModel
  obtain ⟨hsize, hallowed, hleast, hobjective, hreports⟩ := hsolution s hs
  have hvalues : s.values = #[10, 5, 5, 0] := by
    unfold Model.solve at hs
    rw [simplex_sizingModel] at hs
    dsimp only at hs
    rw [Model.solution_eq_ok] at hs
    rw [← Except.ok.inj hs]
  refine ⟨reachable_sizingModel, hsolver, s, hs, hvalues, ?_, hsize, hallowed, hleast, hobjective,
    hreports⟩
  rw [hobjective, hvalues, hcosts]

end SupplyNet
