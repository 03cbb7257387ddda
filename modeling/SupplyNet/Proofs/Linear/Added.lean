import Mathlib
import SupplyNet.Error
import SupplyNet.Proofs.Linear.Constraints
import SupplyNet.Proofs.Linear.Solving

/-!
Adding a condition to a model. Its constant is moved to the right of the relation, which changes
neither whether the two sides are related nor how far they are from it. So a condition on columns
restricts the assignments by just what it says, and one without columns by nothing, unless it can
never hold.
-/
set_option autoImplicit false

namespace SupplyNet

/-! ## Relations with a tolerance -/

namespace Relation

/-- The first number is no further from the relation to the second one than the tolerance. -/
def Within (tolerance : Rat) : Relation → Rat → Rat → Prop
  | .eq, a, b => |a - b| ≤ tolerance
  | .le, a, b => a ≤ b + tolerance
  | .ge, a, b => b - tolerance ≤ a

variable {relation : Relation} {a b tolerance : Rat}

theorem within_zero_iff : relation.Within 0 a b ↔ relation.Relates a b := by
  cases relation with
  | eq => exact abs_nonpos_iff.trans sub_eq_zero
  | le => simp only [Within, Relates, add_zero]
  | ge => simp only [Within, Relates, sub_zero]

theorem Relates.within (h : relation.Relates a b) (ht : 0 ≤ tolerance) :
    relation.Within tolerance a b := by
  cases relation with
  | eq =>
    obtain rfl : a = b := h
    simpa [Within] using ht
  | le => exact le_add_of_le_of_nonneg h ht
  | ge => exact (sub_le_self b ht).trans h

/-- Nothing changes if the same number is taken away on both sides. -/
theorem within_sub_iff (k : Rat) :
    relation.Within tolerance (a - k) (b - k) ↔ relation.Within tolerance a b := by
  cases relation with
  | eq => simp only [Within, sub_sub_sub_cancel_right]
  | le => simp only [Within, sub_add_eq_add_sub, sub_le_sub_iff_right]
  | ge => simp only [Within, sub_right_comm b k, sub_le_sub_iff_right]

end Relation

theorem Scalar.abs_eq (q : Rat) : Scalar.abs q = |q| := by
  unfold Scalar.abs
  split
  · next h => rw [abs_of_neg h]
  · next h => rw [abs_of_nonneg (not_lt.1 h)]

namespace Constraint

variable (c : Constraint Rat) (x : Var → Rat) (tolerance : Rat)

theorem holdsWithin_iff :
    c.holdsWithin x tolerance = true ↔ c.relation.Within tolerance (c.expr.eval x) c.rhs := by
  unfold holdsWithin
  dsimp only
  cases c.relation with
  | eq =>
    rw [Scalar.abs_eq]
    exact decide_eq_true_iff
  | le => exact decide_eq_true_iff
  | ge => exact decide_eq_true_iff

theorem normalized_holdsWithin_iff : c.normalized.holdsWithin x tolerance = true ↔
    c.relation.Within tolerance (c.expr.eval x) c.rhs := by
  rw [holdsWithin_iff, eval_normalized]
  exact Relation.within_sub_iff c.expr.const

/-- Of a condition without columns, the two numbers must be related but for rounding. -/
theorem admissible_iff {c : Constraint Rat} (h : c.expr.isConst = true) :
    c.Admissible ↔ c.relation.Within 1e-9 c.expr.const c.rhs := by
  have hdecided := c.normalized_holdsWithin_iff (fun _ => 0) 1e-9
  rw [LinearExpr.eval_of_isConst h] at hdecided
  exact ⟨fun hadm => hdecided.1 (hadm h), fun hwithin _ => hdecided.2 hwithin⟩

end Constraint

/-! ## Adding a condition -/

namespace Model

variable {c : Constraint Rat}

/-- A condition on columns is always added, without a constant on its left. -/
theorem Call.run_condition_of_columns (m : Model Rat) (h : c.expr.isConst = false) :
    (condition c).run m = .ok () { m with constraints := m.constraints.push c.normalized } := by
  have hadm : c.Admissible := fun hconst => absurd (h.symm.trans hconst) Bool.false_ne_true
  have hstored : Constraint.stored [c] = [c.normalized] := by simp [Constraint.stored, h]
  rw [run_condition m hadm, hstored, ← Array.push_eq_append]

/-- A condition without columns is added to no model. -/
theorem Call.run_condition_of_const (m : Model Rat) (h : c.expr.isConst = true)
    (hadm : c.Admissible) : (condition c).run m = .ok () m := by
  have hstored : Constraint.stored [c] = [] := by simp [Constraint.stored, h]
  rw [run_condition m hadm, hstored, Array.append_empty]

/-- A condition on columns is added, with no constant on its left, and the assignments that meet all
conditions are those that met the others and that it relates to its right side. A condition without
columns leaves the model as it is. If its two numbers are within 1e-9 of the relation, nothing else
happens. Otherwise the call fails as infeasible, and no assignment relates them. -/
theorem condition_adds (m : Model Rat) (name : String) (lhs : LinearExpr Rat)
    (relation : Relation) (rhs : Rat) :
    (lhs.isConst = false → ∃ c, c.name = name ∧ c.expr.const = 0 ∧
      (Call.condition ⟨name, lhs, relation, rhs⟩).run m =
        .ok () { m with constraints := m.constraints.push c } ∧
      ∀ x, (∀ d ∈ m.constraints.push c, d.holdsWithin x 0 = true) ↔
        (∀ d ∈ m.constraints, d.holdsWithin x 0 = true) ∧ relation.Relates (lhs.eval x) rhs) ∧
    (lhs.isConst = true →
      (relation.Within 1e-9 lhs.const rhs →
        (Call.condition ⟨name, lhs, relation, rhs⟩).run m = .ok () m) ∧
      (¬relation.Within 1e-9 lhs.const rhs → ∃ fault,
        (Call.condition ⟨name, lhs, relation, rhs⟩).run m = .error fault m ∧
        (Error.model fault).status? = some .infeasible ∧
        ∀ x, ¬relation.Relates (lhs.eval x) rhs)) := by
  constructor
  · intro h
    refine ⟨_, rfl, rfl, Call.run_condition_of_columns m h, fun x => ?_⟩
    have hadded := Constraint.normalized_holdsWithin_iff ⟨name, lhs, relation, rhs⟩ x 0
    rw [Relation.within_zero_iff] at hadded
    simp only [Array.mem_push, or_imp, forall_and, forall_eq]
    exact and_congr_right fun _ => hadded
  · intro h
    have hadmissible := Constraint.admissible_iff (c := ⟨name, lhs, relation, rhs⟩) h
    refine ⟨fun hwithin => Call.run_condition_of_const m h (hadmissible.2 hwithin),
      fun hnot => ⟨_, Call.run_condition_of_not m (mt hadmissible.1 hnot), rfl, fun x hx => hnot ?_⟩⟩
    rw [LinearExpr.eval_of_isConst h] at hx
    exact hx.within (by norm_num)

/-- Five less a column is zero where the column is five, and three is never two. -/
theorem condition_adds_five :
    (.ofConst 5 - .ofVar ⟨0⟩ : LinearExpr Rat).isConst = false ∧
    (∃ c, c.expr.const = 0 ∧
      (Call.condition ⟨"five", .ofConst 5 - .ofVar ⟨0⟩, .eq, 0⟩).run (empty : Model Rat) =
        .ok () { (empty : Model Rat) with constraints := #[c] } ∧
      ∀ x, (∀ d ∈ #[c], d.holdsWithin x 0 = true) ↔ x ⟨0⟩ = 5) ∧
    (.ofConst 3 : LinearExpr Rat).isConst = true ∧
    ¬Relation.eq.Within 1e-9 (.ofConst 3 : LinearExpr Rat).const 2 ∧
    ∃ fault, (Call.condition ⟨"never", .ofConst 3, .eq, 2⟩).run (empty : Model Rat) =
      .error fault empty ∧ (Error.model fault).status? = some .infeasible := by
  have hcolumns : (.ofConst 5 - .ofVar ⟨0⟩ : LinearExpr Rat).isConst = false := by decide +kernel
  obtain ⟨c, -, hconst, hadd, hmeets⟩ :=
    (condition_adds empty "five" (.ofConst 5 - .ofVar ⟨0⟩) .eq 0).1 hcolumns
  have hfar : ¬Relation.eq.Within 1e-9 (.ofConst 3 : LinearExpr Rat).const 2 := by
    norm_num [Relation.Within, LinearExpr.const_ofConst]
  obtain ⟨fault, hfault, hstatus, -⟩ :=
    ((condition_adds empty "never" (.ofConst 3) .eq 2).2 rfl).2 hfar
  refine ⟨hcolumns, ⟨c, hconst, hadd, fun x => ?_⟩, rfl, hfar, fault, hfault, hstatus⟩
  have hnone : ∀ d ∈ (empty : Model Rat).constraints, d.holdsWithin x 0 = true :=
    fun d hd => absurd hd (by simp [empty])
  have hx := hmeets x
  rw [and_iff_right hnone, Relation.Relates, LinearExpr.eval_sub, LinearExpr.eval_ofConst,
    LinearExpr.eval_ofVar, sub_eq_zero] at hx
  exact hx.trans eq_comm

end Model

end SupplyNet
