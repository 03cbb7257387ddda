import Mathlib
import SupplyNet.Proofs.Linear.Expr

/-!
Expressions that are computed. Whatever an expression is computed from and in whichever order, its
value is what the same computation makes of the values of its parts, and it is canonical. As a list
of values with a single one tells the coefficient of a column, the values of a canonical expression
determine it: two computed expressions are the same if they never differ in value.
-/
set_option autoImplicit false

namespace SupplyNet

namespace LinearExpr

/-! ## Coefficients -/

theorem Canonical.coeff_of_mem {e : LinearExpr Rat} (he : Canonical e) {v : Var} {c : Rat}
    (h : (v, c) ∈ e.terms) : e.coeff v = c := by
  obtain ⟨before, after, hsplit⟩ := List.append_of_mem h
  have hascending := he.ascending
  rw [hsplit, List.pairwise_append] at hascending
  obtain ⟨-, hafter, hbefore⟩ := hascending
  have hnone : weightOf (fun w => if w = v then 1 else 0) before = 0 :=
    weightOf_of_forall_ne fun t ht heq =>
      (hbefore t ht (v, c) List.mem_cons_self).ne (congrArg Var.index heq)
  have hsum : e.coeff v = weightOf (fun w => if w = v then 1 else 0) before +
      weightOf (fun w => if w = v then 1 else 0) ((v, c) :: after) := by
    unfold coeff weight
    rw [hsplit, weightOf, List.map_append, List.sum_append]
    rfl
  rw [hsum, hnone, coeff_head hafter, zero_add]

theorem exists_mem_of_coeff_ne_zero {e : LinearExpr Rat} {v : Var} (h : e.coeff v ≠ 0) :
    ∃ c, (v, c) ∈ e.terms := by
  by_contra hnone
  exact h (weightOf_of_forall_ne fun t ht heq => hnone ⟨t.2, heq ▸ ht⟩)

/-- The terms are the columns whose coefficients are not zero. -/
theorem Canonical.mem_terms_iff {e : LinearExpr Rat} (he : Canonical e) {v : Var} {c : Rat} :
    (v, c) ∈ e.terms ↔ c ≠ 0 ∧ e.coeff v = c := by
  constructor
  · exact fun h => ⟨he.nonzero _ h, he.coeff_of_mem h⟩
  · rintro ⟨hc, rfl⟩
    obtain ⟨d, hd⟩ := exists_mem_of_coeff_ne_zero hc
    rwa [he.coeff_of_mem hd]

theorem Canonical.terms_eq {a b : LinearExpr Rat} (ha : Canonical a) (hb : Canonical b)
    (h : ∀ v, a.coeff v = b.coeff v) : a.terms = b.terms := by
  have hnodup : ∀ {e : LinearExpr Rat}, Canonical e → e.terms.Nodup := fun he =>
    he.ascending.imp fun hlt heq => hlt.ne (congrArg (fun t => t.1.index) heq)
  have hperm : a.terms.Perm b.terms :=
    (List.perm_ext_iff_of_nodup (hnodup ha) (hnodup hb)).2 fun t => by
      rw [ha.mem_terms_iff, hb.mem_terms_iff, h]
  exact hperm.eq_of_pairwise (fun _ _ _ _ hlt hgt => absurd hlt hgt.asymm) ha.ascending hb.ascending

/-! ## Values -/

/-- The list of values that is one at a column and zero at those before it. -/
def unitValues (v : Var) : Array Rat := (Array.replicate v.index 0).push 1

theorem assignment_empty : assignment (#[] : Array Rat) = fun _ => 0 := rfl

theorem assignment_unitValues (v : Var) :
    assignment (unitValues v) = fun w => if w = v then 1 else 0 := by
  funext w
  unfold assignment unitValues
  rw [Array.getElem?_push, Array.size_replicate]
  by_cases h : w = v
  · rw [if_pos h, if_pos (congrArg Var.index h)]
    rfl
  · rw [if_neg h, if_neg fun hindex => h (Var.ext_index hindex), Array.getElem?_replicate]
    split <;> rfl

theorem eval_empty (e : LinearExpr Rat) : e.eval (assignment #[]) = e.const := by
  have hzero : weight (fun _ => 0) e = 0 := by simp [weight, weightOf]
  rw [assignment_empty, eval_eq, hzero, zero_add]

theorem eval_unitValues (e : LinearExpr Rat) (v : Var) :
    e.eval (assignment (unitValues v)) = e.coeff v + e.const := by
  rw [assignment_unitValues, eval_eq]
  rfl

/-- Canonical expressions that do not differ in any value are the same. -/
theorem Canonical.eq_iff {a b : LinearExpr Rat} (ha : Canonical a) (hb : Canonical b) :
    a = b ↔ ∀ values, a.eval (assignment values) = b.eval (assignment values) := by
  refine ⟨fun h values => h ▸ rfl, fun h => ?_⟩
  -- No values at all leave the constant, and a single one adds the coefficient of its column.
  have hconst : a.const = b.const := by
    have hempty := h #[]
    rwa [eval_empty, eval_empty] at hempty
  have hterms : a.terms = b.terms := ha.terms_eq hb fun v => by
    have hunit := h (unitValues v)
    rw [eval_unitValues, eval_unitValues, hconst] at hunit
    exact add_right_cancel hunit
  obtain ⟨terms, const⟩ := a
  subst hterms hconst
  rfl

theorem beq_eq_true_iff {a b : LinearExpr Rat} : (a == b) = true ↔ a = b := by
  obtain ⟨terms, const⟩ := a
  obtain ⟨terms', const'⟩ := b
  change (terms == terms' && const == const') = true ↔ _
  rw [Bool.and_eq_true, beq_iff_eq, beq_iff_eq, LinearExpr.mk.injEq]

theorem Canonical.isConst_iff_eval {e : LinearExpr Rat} (he : Canonical e) :
    e.isConst = true ↔
      ∀ values values', e.eval (assignment values) = e.eval (assignment values') := by
  constructor
  · intro h values values'
    rw [eval_of_isConst h, eval_of_isConst h]
  · intro h
    refine (isConst_iff he).2 fun v => ?_
    have hunit := h (unitValues v) #[]
    rw [eval_unitValues, eval_empty] at hunit
    exact add_eq_right.1 hunit

/-! ## Computations -/

theorem eval_neg (e : LinearExpr Rat) (x : Var → Rat) : (-e).eval x = -e.eval x := by
  have h := eval_scale e (-1) x
  rw [mul_neg_one] at h
  exact h

/-- The expressions that are computed from numbers and columns, with the same computation of
values. -/
inductive Computed : LinearExpr Rat → ((Var → Rat) → Rat) → Prop
  | zero : Computed 0 fun _ => 0
  | ofConst (c : Rat) : Computed (ofConst c) fun _ => c
  | ofVar (v : Var) : Computed (ofVar v) fun x => x v
  | term (v : Var) (c : Rat) : Computed (term v c) fun x => x v * c
  | add {a b : LinearExpr Rat} {f g : (Var → Rat) → Rat} (ha : Computed a f) (hb : Computed b g) :
      Computed (a + b) fun x => f x + g x
  | sub {a b : LinearExpr Rat} {f g : (Var → Rat) → Rat} (ha : Computed a f) (hb : Computed b g) :
      Computed (a - b) fun x => f x - g x
  | neg {a : LinearExpr Rat} {f : (Var → Rat) → Rat} (ha : Computed a f) :
      Computed (-a) fun x => -f x
  | scale {a : LinearExpr Rat} {f : (Var → Rat) → Rat} (ha : Computed a f) (k : Rat) :
      Computed (a.scale k) fun x => f x * k
  | sum {items : List (LinearExpr Rat × ((Var → Rat) → Rat))}
      (hitems : ∀ item ∈ items, Computed item.1 item.2) :
      Computed (sum (items.map Prod.fst)) fun x => (items.map fun item => item.2 x).sum

theorem Computed.eval_eq {e : LinearExpr Rat} {f : (Var → Rat) → Rat} (h : Computed e f)
    (x : Var → Rat) : e.eval x = f x := by
  induction h with
  | zero => exact eval_zero x
  | ofConst c => exact eval_ofConst c x
  | ofVar v => exact eval_ofVar v x
  | term v c => rw [eval_term, mul_comm]
  | add _ _ iha ihb => rw [eval_add, iha, ihb]
  | sub _ _ iha ihb => rw [eval_sub, iha, ihb]
  | neg _ ih => rw [eval_neg, ih]
  | scale _ k ih => rw [eval_scale, ih]
  | sum _ ih =>
    rw [eval_sum, List.map_map]
    exact congrArg List.sum (List.map_congr_left ih)

theorem Computed.canonical {e : LinearExpr Rat} {f : (Var → Rat) → Rat} (h : Computed e f) :
    Canonical e := by
  induction h with
  | zero => exact canonical_zero
  | ofConst c => exact canonical_ofConst c
  | ofVar v => exact canonical_term v 1
  | term v c => exact canonical_term v c
  | add _ _ iha ihb => exact iha.add ihb
  | sub _ _ iha ihb => exact iha.sub ihb
  | neg _ ih => exact ih.scale (-1)
  | scale _ k ih => exact ih.scale k
  | sum _ ih => exact Canonical.sum (List.forall_mem_map.2 ih)

/-- A sum of canonical expressions does not depend on their order. -/
theorem sum_perm {es es' : List (LinearExpr Rat)} (hes : ∀ e ∈ es, Canonical e)
    (h : es.Perm es') : sum es = sum es' := by
  have hes' : ∀ e ∈ es', Canonical e := fun e he => hes e (h.mem_iff.2 he)
  refine ((Canonical.sum hes).eq_iff (Canonical.sum hes')).2 fun values => ?_
  rw [eval_sum, eval_sum]
  exact (h.map _).sum_eq

/-- A computed expression has the value that its computation makes of any list of values, its
columns ascend without a zero coefficient, and it has no columns exactly if its value never changes.
Sums of computed expressions do not depend on their order, and two computed expressions are equal
exactly if they have the same values. -/
theorem computed_faithful :
    (∀ e f, Computed e f →
      (∀ values, e.eval (assignment values) = f (assignment values)) ∧
      (e.terms.Pairwise fun s t => s.1.index < t.1.index) ∧ (∀ t ∈ e.terms, t.2 ≠ 0) ∧
      (e.isConst = true ↔
        ∀ values values', e.eval (assignment values) = e.eval (assignment values'))) ∧
    (∀ es es' : List (LinearExpr Rat), (∀ e ∈ es, ∃ f, Computed e f) → es.Perm es' →
      sum es = sum es') ∧
    ∀ a b f g, Computed a f → Computed b g →
      ((a == b) = true ↔ ∀ values, a.eval (assignment values) = b.eval (assignment values)) := by
  refine ⟨fun e f h => ?_, fun es es' hes hperm => ?_, fun a b f g ha hb => ?_⟩
  · exact ⟨fun values => h.eval_eq _, h.canonical.ascending, h.canonical.nonzero,
      h.canonical.isConst_iff_eval⟩
  · refine sum_perm (fun e he => ?_) hperm
    obtain ⟨f, hf⟩ := hes e he
    exact hf.canonical
  · rw [beq_eq_true_iff]
    exact ha.canonical.eq_iff hb.canonical

/-- A column that is added and subtracted again leaves nothing behind, in whichever order the rest
is added up. -/
theorem computed_cancelled :
    Computed (sum [term ⟨0⟩ 2, ofVar ⟨3⟩] - ofVar ⟨3⟩) (fun x => (x ⟨0⟩ * 2 + (x ⟨3⟩ + 0)) - x ⟨3⟩) ∧
    sum [term ⟨0⟩ 2, ofVar ⟨3⟩] = (sum [ofVar ⟨3⟩, term ⟨0⟩ 2] : LinearExpr Rat) ∧
    (sum [term ⟨0⟩ 2, ofVar ⟨3⟩] - ofVar ⟨3⟩ == (term ⟨0⟩ 2 : LinearExpr Rat)) = true ∧
    (ofVar ⟨3⟩ - ofVar ⟨3⟩ : LinearExpr Rat).isConst = true := by
  obtain ⟨hvalue, hsum, hequal⟩ := computed_faithful
  have hterm : Computed (term ⟨0⟩ 2) fun x => x ⟨0⟩ * 2 := .term _ _
  have hvar : Computed (ofVar ⟨3⟩) fun x => x ⟨3⟩ := .ofVar _
  have hboth : Computed (sum [term ⟨0⟩ 2, ofVar ⟨3⟩] - ofVar ⟨3⟩)
      fun x => (x ⟨0⟩ * 2 + (x ⟨3⟩ + 0)) - x ⟨3⟩ :=
    .sub (@Computed.sum [(_, _), (_, _)]
      (List.forall_mem_cons.2 ⟨hterm, List.forall_mem_singleton.2 hvar⟩)) hvar
  refine ⟨hboth, hsum _ _ (List.forall_mem_cons.2 ⟨⟨_, hterm⟩, ?_⟩) (.swap _ _ _), ?_, ?_⟩
  · exact List.forall_mem_singleton.2 ⟨_, hvar⟩
  · refine (hequal _ _ _ _ hboth hterm).2 fun values => ?_
    rw [(hvalue _ _ hboth).1, (hvalue _ _ hterm).1]
    ring
  · obtain ⟨hsame, -, -, hconst⟩ := hvalue _ _ (hvar.sub hvar)
    refine hconst.2 fun values values' => ?_
    rw [hsame, hsame, sub_self, sub_self]

end LinearExpr

end SupplyNet
