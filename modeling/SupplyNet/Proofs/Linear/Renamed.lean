import Mathlib
import SupplyNet.Proofs.Linear.Constraints
import SupplyNet.Proofs.Related

/-!
Expressions over renamed columns. The terms of an expression are in the order of its columns, so
renaming the columns changes this order too, but neither the coefficients nor the constant.
-/
set_option autoImplicit false

namespace SupplyNet

variable {φ : Var ≃ Var}

namespace LinearExpr

/-- The second expression has the coefficients of the first one under the new names. -/
structure Renamed (φ : Var ≃ Var) (e e' : LinearExpr Rat) : Prop where
  canonical : e.Canonical
  canonical' : e'.Canonical
  const : e'.const = e.const
  weight : ∀ w, weight w e' = weight (w ∘ φ) e

namespace Renamed

variable {a a' b b' e e' : LinearExpr Rat}

theorem ofConst (c : Rat) : Renamed φ (ofConst c) (ofConst c) :=
  ⟨canonical_ofConst c, canonical_ofConst c, rfl, fun _ => rfl⟩

theorem zero : Renamed φ 0 0 := ofConst 0

theorem term (v : Var) (c : Rat) : Renamed φ (term v c) (.term (φ v) c) :=
  ⟨canonical_term v c, canonical_term (φ v) c, rfl, fun w => by
    rw [weight_term, weight_term, Function.comp_apply]⟩

theorem ofVar (v : Var) : Renamed φ (ofVar v) (.ofVar (φ v)) := term v 1

theorem add (ha : Renamed φ a a') (hb : Renamed φ b b') : Renamed φ (a + b) (a' + b') :=
  ⟨ha.canonical.add hb.canonical, ha.canonical'.add hb.canonical',
    by rw [const_add, const_add, ha.const, hb.const],
    fun w => by rw [weight_add, weight_add, ha.weight, hb.weight]⟩

theorem scale (h : Renamed φ e e') (k : Rat) : Renamed φ (e.scale k) (e'.scale k) :=
  ⟨h.canonical.scale k, h.canonical'.scale k, by rw [const_scale, const_scale, h.const],
    fun w => by rw [weight_scale, weight_scale, h.weight]⟩

theorem sub (ha : Renamed φ a a') (hb : Renamed φ b b') : Renamed φ (a - b) (a' - b') :=
  ha.add (hb.scale (-1))

/-- The order of the summands does not count. -/
theorem sum {es es' : List (LinearExpr Rat)} (h : Matched (Renamed φ) es es') :
    Renamed φ (sum es) (sum es') := by
  have hes' : ∀ e ∈ es', e.Canonical := h.forall_mem fun _ _ _ hab => hab.canonical'
  obtain ⟨r, hr, hp⟩ := h
  have hes : ∀ e ∈ es, e.Canonical := by
    have hflip : List.Forall₂ (fun e' e => Renamed φ e e') r es := hr.flip
    exact (Matched.of_forall₂ hflip).forall_mem fun _ _ _ hab => hab.canonical
  refine ⟨.sum hes, .sum hes', ?_, fun w => ?_⟩
  · rw [const_sum, const_sum]
    exact ((Matched.perm_map ⟨r, hr, hp⟩ fun _ _ hab => hab.const.symm).sum_eq).symm
  · rw [weight_sum, weight_sum]
    exact ((Matched.perm_map ⟨r, hr, hp⟩ fun _ _ hab => (hab.weight w).symm).sum_eq).symm

theorem coeff (h : Renamed φ e e') (v : Var) : e'.coeff (φ v) = e.coeff v := by
  unfold LinearExpr.coeff
  rw [h.weight]
  congr 1
  funext w
  simp only [Function.comp_apply, φ.injective.eq_iff]

theorem isConst_eq (h : Renamed φ e e') : e'.isConst = e.isConst := by
  rw [Bool.eq_iff_iff, isConst_iff h.canonical, isConst_iff h.canonical']
  constructor
  · intro hzero v
    rw [← h.coeff]
    exact hzero (φ v)
  · intro hzero w
    have hw := hzero (φ.symm w)
    rw [← h.coeff, φ.apply_symm_apply] at hw
    exact hw

end Renamed

end LinearExpr

namespace Constraint

/-- The same condition under the new names. -/
structure Renamed (φ : Var ≃ Var) (c c' : Constraint Rat) : Prop where
  name : c'.name = c.name
  expr : c.expr.Renamed φ c'.expr
  relation : c'.relation = c.relation
  rhs : c'.rhs = c.rhs

namespace Renamed

variable {c c' : Constraint Rat}

theorem normalized (h : c.Renamed φ c') : c.normalized.Renamed φ c'.normalized := by
  refine ⟨h.name, ⟨⟨h.expr.canonical.ascending, h.expr.canonical.nonzero⟩,
    ⟨h.expr.canonical'.ascending, h.expr.canonical'.nonzero⟩, rfl, h.expr.weight⟩, h.relation, ?_⟩
  change c'.rhs - c'.expr.const = c.rhs - c.expr.const
  rw [h.rhs, h.expr.const]

/-- Without columns nothing is renamed, so the same conditions can be met. -/
theorem admissible (h : c.Renamed φ c') (hc : c.Admissible) : c'.Admissible := by
  intro hconst
  rw [h.expr.isConst_eq] at hconst
  have hn := h.normalized
  have heval : c'.normalized.expr.eval (fun _ => 0) = c.normalized.expr.eval fun _ => 0 := by
    rw [LinearExpr.eval_eq, LinearExpr.eval_eq, hn.expr.weight, hn.expr.const]
    rfl
  have hholds := hc hconst
  unfold holdsWithin at hholds ⊢
  rw [heval, hn.relation, hn.rhs]
  exact hholds

theorem stored {cs cs' : List (Constraint Rat)} (h : Matched (Renamed φ) cs cs') :
    Matched (Renamed φ) (stored cs) (stored cs') := by
  unfold Constraint.stored
  exact (h.filter fun c c' hc => by rw [hc.expr.isConst_eq]).map fun c c' hc => hc.normalized

end Renamed

end Constraint

end SupplyNet
