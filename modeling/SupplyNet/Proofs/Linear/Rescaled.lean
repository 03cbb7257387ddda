import Mathlib
import SupplyNet.Linear.Model
import SupplyNet.Proofs.Linear.Expr

/-!
Expressions over columns that count in other units. If every column is multiplied by a factor of its
own, an expression may come to a multiple of another one, and then both are bounded alike.
-/
set_option autoImplicit false

namespace SupplyNet

/-- The assignment in other units, with so many of the new units in one of the old. -/
def rescale (σ x : Var → Rat) (v : Var) : Rat := σ v * x v

variable {σ : Var → Rat}

namespace LinearExpr

/-- In the new units the second expression has `k` times the value of the first one. -/
def Rescaled (σ : Var → Rat) (k : Rat) (e e' : LinearExpr Rat) : Prop :=
  ∀ x, e'.eval (rescale σ x) = k * e.eval x

namespace Rescaled

variable {k : Rat} {a a' b b' e e' : LinearExpr Rat}

theorem zero (σ : Var → Rat) (k : Rat) : Rescaled σ k 0 0 := by
  intro x
  rw [eval_zero, eval_zero, mul_zero]

theorem ofConst {c c' : Rat} (h : c' = k * c) : Rescaled σ k (ofConst c) (ofConst c') := by
  intro x
  rw [eval_ofConst, eval_ofConst, h]

theorem term {v : Var} {c c' : Rat} (h : c' * σ v = k * c) :
    Rescaled σ k (term v c) (.term v c') := by
  intro x
  rw [eval_term, eval_term, rescale, ← mul_assoc, ← mul_assoc, h]

theorem ofVar {v : Var} (h : σ v = k) : Rescaled σ k (ofVar v) (.ofVar v) :=
  term (by rw [h, one_mul, mul_one])

theorem add (ha : Rescaled σ k a a') (hb : Rescaled σ k b b') : Rescaled σ k (a + b) (a' + b') := by
  intro x
  rw [eval_add, eval_add, ha, hb, mul_add]

theorem sub (ha : Rescaled σ k a a') (hb : Rescaled σ k b b') : Rescaled σ k (a - b) (a' - b') := by
  intro x
  rw [eval_sub, eval_sub, ha, hb, mul_sub]

theorem scale {j c c' : Rat} (h : Rescaled σ j e e') (hc : c' * j = k * c) :
    Rescaled σ k (e.scale c) (e'.scale c') := by
  intro x
  rw [eval_scale, eval_scale, h, ← mul_assoc, mul_right_comm k, ← hc]
  ring

theorem sum {es es' : List (LinearExpr Rat)} (h : List.Forall₂ (Rescaled σ k) es es') :
    Rescaled σ k (.sum es) (.sum es') := by
  intro x
  rw [eval_sum, eval_sum]
  induction h with
  | nil => simp
  | cons he _ ih =>
    rw [List.map_cons, List.map_cons, List.sum_cons, List.sum_cons, ih, he, mul_add]

end Rescaled

end LinearExpr

namespace Constraint

/-- The same condition, with both sides multiplied by a positive number in the new units. -/
structure Rescaled (σ : Var → Rat) (c c' : Constraint Rat) : Prop where
  relation : c'.relation = c.relation
  sides : ∃ k, 0 < k ∧ c.expr.Rescaled σ k c'.expr ∧ c'.rhs = k * c.rhs

theorem Rescaled.holds_iff {c c' : Constraint Rat} (h : c.Rescaled σ c') (x : Var → Rat) :
    c'.Holds (rescale σ x) ↔ c.Holds x := by
  obtain ⟨k, hk, hexpr, hrhs⟩ := h.sides
  unfold Holds
  rw [h.relation, hexpr, hrhs]
  cases c.relation with
  | eq => exact mul_right_inj' hk.ne'
  | le => exact mul_le_mul_iff_right₀ hk
  | ge => exact mul_le_mul_iff_right₀ hk

theorem Rescaled.forall_holds_iff {cs cs' : List (Constraint Rat)}
    (h : List.Forall₂ (Rescaled σ) cs cs') (x : Var → Rat) :
    (∀ c ∈ cs', c.Holds (rescale σ x)) ↔ ∀ c ∈ cs, c.Holds x := by
  induction h with
  | nil => simp
  | cons hc _ ih => rw [List.forall_mem_cons, List.forall_mem_cons, hc.holds_iff, ih]

end Constraint

/-- The second model is the first one in other units: the same columns, conditions that hold of the
same, and the same costs. -/
structure Model.Rescaled (σ : Var → Rat) (m m' : Model Rat) : Prop where
  columns : m'.columns = m.columns
  constraints : ∀ x, (∀ c ∈ m'.constraints, c.Holds (rescale σ x)) ↔ ∀ c ∈ m.constraints, c.Holds x
  objective : ∀ x, m'.objective.eval (rescale σ x) = m.objective.eval x

end SupplyNet
