import Mathlib
import SupplyNet.Linear.Program
import SupplyNet.Proofs.Linear.Expr

/-!
Expressions that never fall below zero. If an expression has neither a constant nor a negative
coefficient, and no column is negative, then its value is not negative either; so a program that
minimises it has a bound.
-/
set_option autoImplicit false

namespace SupplyNet

namespace LinearExpr

/-- What holds of each term and of no term holds of each term of a sum, if it holds of the sum of
two coefficients that it holds of. -/
theorem forall_addTerms {P : Var → Rat → Prop} (hadd : ∀ v c d, P v c → P v d → P v (d + c))
    {a b : List (Var × Rat)} (ha : ∀ t ∈ a, P t.1 t.2) (hb : ∀ t ∈ b, P t.1 t.2) :
    ∀ t ∈ addTerms a b, P t.1 t.2 := by
  intro t ht
  fun_induction addTerms a b with
  | case1 terms => exact ha t ht
  | case2 v c r ih =>
    obtain ⟨hc, hr⟩ := List.forall_mem_cons.1 hb
    rcases mem_consTerm ht with ⟨rfl, -⟩ | ht
    · rw [zero_add]
      exact hc
    · exact ih ha hr ht
  | case3 w d s v c r hlt ih =>
    obtain ⟨hc, hr⟩ := List.forall_mem_cons.1 hb
    rcases mem_consTerm ht with ⟨rfl, -⟩ | ht
    · rw [zero_add]
      exact hc
    · exact ih ha hr ht
  | case4 d s v c r hge ih =>
    obtain ⟨hc, hr⟩ := List.forall_mem_cons.1 hb
    obtain ⟨hd, hs⟩ := List.forall_mem_cons.1 ha
    rcases mem_consTerm ht with ⟨rfl, -⟩ | ht
    · exact hadd v c d hc hd
    · exact ih hs hr ht
  | case5 w d s v c r hge hne ih =>
    obtain ⟨hd, hs⟩ := List.forall_mem_cons.1 ha
    rcases List.mem_cons.1 ht with rfl | ht
    · exact hd
    · exact ih hs hb ht

/-- No constant, and no negative coefficient at any of the first `size` columns or beyond them. -/
structure NonnegOver (size : Nat) (e : LinearExpr Rat) : Prop where
  const : e.const = 0
  terms : ∀ t ∈ e.terms, t.1.index < size ∧ 0 ≤ t.2

namespace NonnegOver

variable {size : Nat} {a b e : LinearExpr Rat}

theorem zero (size : Nat) : NonnegOver size 0 := ⟨rfl, fun _ h => absurd h List.not_mem_nil⟩

theorem term {v : Var} (hv : v.index < size) {c : Rat} (hc : 0 ≤ c) :
    NonnegOver size (.term v c) := by
  refine ⟨rfl, fun t ht => ?_⟩
  rcases mem_consTerm ht with ⟨rfl, -⟩ | ht
  · rw [zero_add]
    exact ⟨hv, hc⟩
  · exact absurd ht List.not_mem_nil

theorem ofVar {v : Var} (hv : v.index < size) : NonnegOver size (.ofVar v) := term hv zero_le_one

theorem add (ha : NonnegOver size a) (hb : NonnegOver size b) : NonnegOver size (a + b) := by
  refine ⟨by rw [const_add, ha.const, hb.const, add_zero], ?_⟩
  exact forall_addTerms (P := fun v c => v.index < size ∧ 0 ≤ c)
    (fun v c d hc hd => ⟨hc.1, add_nonneg hd.2 hc.2⟩) ha.terms hb.terms

theorem scale (h : NonnegOver size e) {k : Rat} (hk : 0 ≤ k) : NonnegOver size (e.scale k) := by
  refine ⟨by rw [const_scale, h.const, zero_mul], fun t ht => ?_⟩
  unfold LinearExpr.scale at ht
  split at ht
  · exact absurd ht List.not_mem_nil
  · obtain ⟨s, hs, rfl⟩ := List.mem_map.1 ht
    exact ⟨(h.terms s hs).1, mul_nonneg (h.terms s hs).2 hk⟩

theorem sum {es : List (LinearExpr Rat)} (h : ∀ e ∈ es, NonnegOver size e) :
    NonnegOver size (.sum es) := by
  have hfold : ∀ total : LinearExpr Rat, NonnegOver size total →
      NonnegOver size (es.foldl (· + ·) total) := by
    induction es with
    | nil => exact fun total htotal => htotal
    | cons e es ih =>
      obtain ⟨he, hes⟩ := List.forall_mem_cons.1 h
      exact fun total htotal => ih hes (total + e) (htotal.add he)
  exact hfold 0 (zero size)

/-- No value falls below zero as long as no column does. -/
theorem eval_nonneg (h : NonnegOver size e) {x : Var → Rat}
    (hx : ∀ v : Var, v.index < size → 0 ≤ x v) : 0 ≤ e.eval x := by
  have hweight : ∀ terms : List (Var × Rat), (∀ t ∈ terms, t.1.index < size ∧ 0 ≤ t.2) →
      0 ≤ weightOf x terms := by
    intro terms hterms
    induction terms with
    | nil => exact le_refl 0
    | cons t terms ih =>
      obtain ⟨ht, hrest⟩ := List.forall_mem_cons.1 hterms
      rw [weightOf_cons]
      exact add_nonneg (mul_nonneg ht.2 (hx t.1 ht.1)) (ih hrest)
  rw [eval_eq, h.const, add_zero]
  exact hweight e.terms h.terms

end NonnegOver

end LinearExpr

/-- A program whose objective falls below any bound. -/
def Program.Unbounded (p : Program Rat) : Prop :=
  ∀ bound, ∃ x, p.Feasible x ∧ p.objective.eval x < bound

end SupplyNet
