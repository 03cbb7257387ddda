import Mathlib
import SupplyNet.Proofs.Linear.Constraints
import SupplyNet.Proofs.Linear.Nonneg

/-!
Prices of conditions. If the conditions of a program, each at its price, add up to no more than the
objective at any column, then nothing feasible costs less than what they yield. So an assignment can
be seen to be minimal from prices under which it costs just that.
-/
set_option autoImplicit false

namespace SupplyNet

/-- Numbers on the right side of a relation that count at a price. -/
def Relation.Admits : Relation → Rat → Prop
  | .eq, _ => True
  | .le, price => price ≤ 0
  | .ge, price => 0 ≤ price

instance Relation.decidableAdmits : (r : Relation) → (price : Rat) → Decidable (r.Admits price)
  | .eq, _ => inferInstanceAs (Decidable True)
  | .le, price => inferInstanceAs (Decidable (price ≤ 0))
  | .ge, price => inferInstanceAs (Decidable (0 ≤ price))

theorem Constraint.price_mul_rhs_le {c : Constraint Rat} {x : Var → Rat} (h : c.Holds x)
    {price : Rat} (hprice : c.relation.Admits price) : price * c.rhs ≤ price * c.expr.eval x := by
  unfold Holds at h
  cases hr : c.relation with
  | eq =>
    rw [hr] at h
    rw [h]
  | le =>
    rw [hr] at h hprice
    exact mul_le_mul_of_nonpos_left h hprice
  | ge =>
    rw [hr] at h hprice
    exact mul_le_mul_of_nonneg_left h hprice

namespace Program

/-- Bounds and conditions are finitely many. -/
instance decidableFeasible (p : Program Rat) (x : Var → Rat) : Decidable (p.Feasible x) :=
  decidable_of_iff ((∀ i < p.lowers.size, ∀ l ∈ p.lowers[i]?.join, l ≤ x ⟨i⟩) ∧
      ∀ c ∈ p.constraints.toList, c.Holds x) <| by
    refine and_congr ⟨fun h i l hl => ?_, fun h i _ l hl => ?_⟩ ?_
    · exact h i (Array.getElem?_eq_some_iff.1 hl).1 l (by simp [hl])
    · exact h i l (by simpa [Option.join_eq_some_iff] using hl)
    · exact forall_congr' fun c => by rw [Array.mem_toList_iff]

variable (p : Program Rat) (prices : List Rat)

/-- The conditions of a program with their prices. -/
def priced : List (Constraint Rat × Rat) := p.constraints.toList.zip prices

/-- What all conditions demand at their prices. -/
def yield : Rat := ((p.priced prices).map fun e => e.2 * e.1.rhs).sum

/-- The objective less all left sides at their prices. -/
def reduced : LinearExpr Rat :=
  p.objective - .sum ((p.priced prices).map fun e => e.1.expr.scale e.2)

/-- No price is of the wrong sign, and no column that may rise lowers the reduced objective. -/
structure Supports : Prop where
  admits : ∀ e ∈ p.priced prices, e.1.relation.Admits e.2
  reduced : ∀ t ∈ (p.reduced prices).terms, 0 ≤ t.2 ∧ p.lowers[t.1.index]? = some (some 0)

instance : Decidable (p.Supports prices) :=
  decidable_of_iff ((∀ e ∈ p.priced prices, e.1.relation.Admits e.2) ∧
      ∀ t ∈ (p.reduced prices).terms, 0 ≤ t.2 ∧ p.lowers[t.1.index]? = some (some 0))
    ⟨fun h => ⟨h.1, h.2⟩, fun h => ⟨h.1, h.2⟩⟩

variable {p prices} {x : Var → Rat}

theorem eval_reduced : (p.reduced prices).eval x =
    p.objective.eval x - ((p.priced prices).map fun e => e.2 * e.1.expr.eval x).sum := by
  unfold reduced
  rw [LinearExpr.eval_sub, LinearExpr.eval_sum, List.map_map]
  refine congrArg (_ - ·) (congrArg List.sum (List.map_congr_left fun e _ => ?_))
  exact (LinearExpr.eval_scale e.1.expr e.2 x).trans (mul_comm _ _)

variable (h : p.Supports prices) (hx : p.Feasible x)

include h hx

theorem Supports.yield_le :
    p.yield prices ≤ ((p.priced prices).map fun e => e.2 * e.1.expr.eval x).sum := by
  refine List.sum_le_sum fun e he => Constraint.price_mul_rhs_le (hx.2 e.1 ?_) (h.admits e he)
  exact Array.mem_toList_iff.1 (List.of_mem_zip he).1

theorem Supports.const_le : (p.reduced prices).const ≤ (p.reduced prices).eval x := by
  rw [LinearExpr.eval_eq]
  refine le_add_of_nonneg_left (List.sum_nonneg fun q hq => ?_)
  obtain ⟨t, ht, rfl⟩ := List.mem_map.1 hq
  obtain ⟨hnonneg, hlower⟩ := h.reduced t ht
  exact mul_nonneg hnonneg (hx.1 _ _ hlower)

/-- Nothing feasible costs less than what the conditions yield. -/
theorem Supports.le_eval :
    p.yield prices + (p.reduced prices).const ≤ p.objective.eval x := by
  have hyield := h.yield_le hx
  have hconst := h.const_le hx
  rw [eval_reduced] at hconst
  linarith

/-- What costs no more than the conditions yield is minimal. -/
theorem Supports.minimal (hcost : p.objective.eval x ≤ p.yield prices + (p.reduced prices).const) :
    p.Minimal x :=
  ⟨hx, fun _ hy => hcost.trans (h.le_eval hy)⟩

end Program

end SupplyNet
