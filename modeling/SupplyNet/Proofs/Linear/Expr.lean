import Mathlib
import SupplyNet.Linear.Expr

/-!
Linear expressions in exact arithmetic. The value of an expression and each of its coefficients are
linear functions of its terms, so one family of laws (`weight`) serves for both. Expressions built
from the operations are canonical: their columns ascend and no coefficient is zero, so that an
expression is constant exactly if all its coefficients vanish.
-/
set_option autoImplicit false

namespace SupplyNet

namespace LinearExpr

/-! ## Weights of terms -/

def weightOf (w : Var → Rat) (terms : List (Var × Rat)) : Rat :=
  (terms.map fun t => t.2 * w t.1).sum

theorem weightOf_nil (w : Var → Rat) : weightOf w [] = 0 := rfl

theorem weightOf_cons (w : Var → Rat) (v : Var) (c : Rat) (terms : List (Var × Rat)) :
    weightOf w ((v, c) :: terms) = c * w v + weightOf w terms := by
  simp [weightOf]

theorem weightOf_consTerm (w : Var → Rat) (v : Var) (c : Rat) (terms : List (Var × Rat)) :
    weightOf w (consTerm v c terms) = c * w v + weightOf w terms := by
  unfold consTerm
  split
  · next h =>
    have hc : c = 0 := by simpa using h
    simp [hc]
  · exact weightOf_cons w v c terms

theorem weightOf_addTerms (w : Var → Rat) (a b : List (Var × Rat)) :
    weightOf w (addTerms a b) = weightOf w a + weightOf w b := by
  fun_induction addTerms a b with
  | case1 terms => simp [weightOf_nil]
  | case2 v c r ih =>
    rw [weightOf_consTerm, ih, weightOf_cons, weightOf_nil]
    ring
  | case3 u d s v c r hlt ih =>
    rw [weightOf_consTerm, ih, weightOf_cons, weightOf_cons]
    ring
  | case4 d s v c r hge ih =>
    rw [weightOf_consTerm, ih, weightOf_cons, weightOf_cons]
    ring
  | case5 u d s v c r hge hne ih =>
    rw [weightOf_cons, ih, weightOf_cons, weightOf_cons]
    ring

def weight (w : Var → Rat) (e : LinearExpr Rat) : Rat := weightOf w e.terms

theorem weight_zero (w : Var → Rat) : weight w 0 = 0 := rfl

theorem weight_ofConst (w : Var → Rat) (c : Rat) : weight w (ofConst c) = 0 := rfl

theorem weight_add (w : Var → Rat) (a b : LinearExpr Rat) :
    weight w (a + b) = weight w a + weight w b :=
  weightOf_addTerms w a.terms b.terms

theorem weight_scale (w : Var → Rat) (e : LinearExpr Rat) (k : Rat) :
    weight w (e.scale k) = weight w e * k := by
  unfold scale
  split
  · next h =>
    have hk : k = 0 := by simpa using h
    rw [hk, mul_zero]
    rfl
  · unfold weight weightOf
    rw [List.map_map, ← List.sum_map_mul_right]
    congr 1
    apply List.map_congr_left
    intro t _
    simp only [Function.comp_apply]
    ring

theorem weight_neg (w : Var → Rat) (e : LinearExpr Rat) : weight w (-e) = -weight w e := by
  have h := weight_scale w e (-1)
  rw [mul_neg_one] at h
  exact h

theorem weight_sub (w : Var → Rat) (a b : LinearExpr Rat) :
    weight w (a - b) = weight w a - weight w b := by
  have h := weight_add w a (-b)
  rw [weight_neg, ← sub_eq_add_neg] at h
  exact h

theorem weight_term (w : Var → Rat) (v : Var) (c : Rat) : weight w (term v c) = c * w v := by
  unfold weight term
  rw [weightOf_consTerm, weightOf_nil]
  ring

theorem weight_ofVar (w : Var → Rat) (v : Var) : weight w (ofVar v) = w v := by
  have h := weight_term w v 1
  rw [one_mul] at h
  exact h

theorem weight_foldl_add (w : Var → Rat) (es : List (LinearExpr Rat)) (e : LinearExpr Rat) :
    weight w (es.foldl (· + ·) e) = weight w e + (es.map (weight w)).sum := by
  induction es generalizing e with
  | nil => simp
  | cons a es ih =>
    rw [List.foldl_cons, ih, weight_add, List.map_cons, List.sum_cons]
    ring

theorem weight_sum (w : Var → Rat) (es : List (LinearExpr Rat)) :
    weight w (sum es) = (es.map (weight w)).sum := by
  unfold sum
  rw [weight_foldl_add, weight_zero, zero_add]

/-! ## Constants -/

theorem const_zero : (0 : LinearExpr Rat).const = 0 := rfl

theorem const_ofConst (c : Rat) : (ofConst c).const = c := rfl

theorem const_term (v : Var) (c : Rat) : (term v c).const = 0 := rfl

theorem const_ofVar (v : Var) : (ofVar v : LinearExpr Rat).const = 0 := rfl

theorem const_add (a b : LinearExpr Rat) : (a + b).const = a.const + b.const := rfl

theorem const_scale (e : LinearExpr Rat) (k : Rat) : (e.scale k).const = e.const * k := by
  unfold scale
  split
  · next h =>
    have hk : k = 0 := by simpa using h
    rw [hk, mul_zero]
    rfl
  · rfl

theorem const_sub (a b : LinearExpr Rat) : (a - b).const = a.const - b.const := by
  have h : (a - b).const = a.const + (b.scale (-1)).const := rfl
  rw [h, const_scale]
  ring

theorem const_foldl_add (es : List (LinearExpr Rat)) (e : LinearExpr Rat) :
    (es.foldl (· + ·) e).const = e.const + (es.map (·.const)).sum := by
  induction es generalizing e with
  | nil => simp
  | cons a es ih =>
    rw [List.foldl_cons, ih, const_add, List.map_cons, List.sum_cons]
    ring

theorem const_sum (es : List (LinearExpr Rat)) : (sum es).const = (es.map (·.const)).sum := by
  unfold sum
  rw [const_foldl_add, const_zero, zero_add]

/-! ## Values and coefficients -/

theorem foldl_terms (x : Var → Rat) (terms : List (Var × Rat)) (total : Rat) :
    terms.foldl (fun total t => total + t.2 * x t.1) total = total + weightOf x terms := by
  induction terms generalizing total with
  | nil => simp [weightOf_nil]
  | cons t terms ih =>
    rw [List.foldl_cons, ih, weightOf_cons]
    ring

theorem eval_eq (e : LinearExpr Rat) (x : Var → Rat) : e.eval x = weight x e + e.const := by
  unfold eval
  have h := foldl_terms x e.terms 0
  rw [zero_add] at h
  exact congrArg (· + e.const) h

/-- Without columns, the value is the constant. -/
theorem eval_of_isConst {e : LinearExpr Rat} (h : e.isConst = true) (x : Var → Rat) :
    e.eval x = e.const := by
  have hterms : e.terms = [] := List.isEmpty_iff.1 h
  rw [eval_eq, weight, hterms, weightOf_nil, zero_add]

/-- An expression that takes two values has a column. -/
theorem isConst_eq_false_of_eval_ne {e : LinearExpr Rat} {x y : Var → Rat}
    (h : e.eval x ≠ e.eval y) : e.isConst = false := by
  cases hc : e.isConst with
  | false => rfl
  | true => exact absurd ((eval_of_isConst hc x).trans (eval_of_isConst hc y).symm) h

theorem eval_zero (x : Var → Rat) : (0 : LinearExpr Rat).eval x = 0 := by
  rw [eval_eq, weight_zero, const_zero, add_zero]

theorem eval_ofConst (c : Rat) (x : Var → Rat) : (ofConst c).eval x = c := by
  rw [eval_eq, weight_ofConst, const_ofConst, zero_add]

theorem eval_term (v : Var) (c : Rat) (x : Var → Rat) : (term v c).eval x = c * x v := by
  rw [eval_eq, weight_term, const_term, add_zero]

theorem eval_ofVar (v : Var) (x : Var → Rat) : (ofVar v).eval x = x v := by
  rw [eval_eq, weight_ofVar, const_ofVar, add_zero]

theorem eval_add (a b : LinearExpr Rat) (x : Var → Rat) :
    (a + b).eval x = a.eval x + b.eval x := by
  rw [eval_eq, eval_eq, eval_eq, weight_add, const_add]
  ring

theorem eval_sub (a b : LinearExpr Rat) (x : Var → Rat) :
    (a - b).eval x = a.eval x - b.eval x := by
  rw [eval_eq, eval_eq, eval_eq, weight_sub, const_sub]
  ring

theorem eval_scale (e : LinearExpr Rat) (k : Rat) (x : Var → Rat) :
    (e.scale k).eval x = e.eval x * k := by
  rw [eval_eq, eval_eq, weight_scale, const_scale]
  ring

theorem eval_sum (es : List (LinearExpr Rat)) (x : Var → Rat) :
    (sum es).eval x = (es.map (·.eval x)).sum := by
  have h : (fun e : LinearExpr Rat => e.eval x) = fun e => weight x e + e.const :=
    funext fun e => eval_eq e x
  rw [eval_eq, weight_sum, const_sum, h, ← List.sum_map_add]

theorem weightOf_blend (a b : Rat) (x y : Var → Rat) (terms : List (Var × Rat)) :
    weightOf (fun v => a * x v + b * y v) terms = a * weightOf x terms + b * weightOf y terms := by
  unfold weightOf
  rw [← List.sum_map_mul_left, ← List.sum_map_mul_left, ← List.sum_map_add]
  refine congrArg List.sum (List.map_congr_left fun t _ => ?_)
  ring

/-- Parts of two assignments that make a whole have the parts of the two values. -/
theorem eval_blend (e : LinearExpr Rat) {a b : Rat} (hab : a + b = 1) (x y : Var → Rat) :
    e.eval (fun v => a * x v + b * y v) = a * e.eval x + b * e.eval y := by
  rw [eval_eq, eval_eq, eval_eq]
  unfold weight
  rw [weightOf_blend]
  linear_combination (-e.const) * hab

/-- The factor of a column. -/
def coeff (e : LinearExpr Rat) (v : Var) : Rat := weight (fun w => if w = v then 1 else 0) e

theorem coeff_term_self (v : Var) (c : Rat) : (term v c).coeff v = c := by
  unfold coeff
  rw [weight_term, if_pos rfl, mul_one]

/-! ## Canonical form -/

/-- The columns ascend, and no coefficient is zero. -/
structure Canonical (e : LinearExpr Rat) : Prop where
  ascending : e.terms.Pairwise fun s t => s.1.index < t.1.index
  nonzero : ∀ t ∈ e.terms, t.2 ≠ 0

theorem Var.ext_index {v w : Var} (h : v.index = w.index) : v = w := by
  cases v
  cases w
  exact congrArg Var.mk h

theorem mem_consTerm {v : Var} {c : Rat} {terms : List (Var × Rat)} {t : Var × Rat}
    (h : t ∈ consTerm v c terms) : (t = (v, c) ∧ c ≠ 0) ∨ t ∈ terms := by
  unfold consTerm at h
  split at h
  · exact Or.inr h
  · next hc =>
    rcases List.mem_cons.1 h with h | h
    · exact Or.inl ⟨h, by simpa using hc⟩
    · exact Or.inr h

theorem pairwise_consTerm {v : Var} {c : Rat} {terms : List (Var × Rat)}
    (h : terms.Pairwise fun s t => s.1.index < t.1.index)
    (hv : ∀ t ∈ terms, v.index < t.1.index) :
    (consTerm v c terms).Pairwise fun s t => s.1.index < t.1.index := by
  unfold consTerm
  split
  · exact h
  · exact List.pairwise_cons.2 ⟨hv, h⟩

/-- Each column of a sum comes from one of the summands. -/
theorem mem_addTerms {a b : List (Var × Rat)} {t : Var × Rat} (h : t ∈ addTerms a b) :
    (∃ s ∈ a, s.1 = t.1) ∨ ∃ s ∈ b, s.1 = t.1 := by
  fun_induction addTerms a b with
  | case1 terms => exact Or.inl ⟨t, h, rfl⟩
  | case2 v c r ih =>
    rcases mem_consTerm h with ⟨rfl, -⟩ | h
    · exact Or.inr ⟨_, List.mem_cons_self, rfl⟩
    · rcases ih h with ⟨s, hs, -⟩ | ⟨s, hs, he⟩
      · exact absurd hs List.not_mem_nil
      · exact Or.inr ⟨s, List.mem_cons_of_mem _ hs, he⟩
  | case3 w d s v c r hlt ih =>
    rcases mem_consTerm h with ⟨rfl, -⟩ | h
    · exact Or.inr ⟨_, List.mem_cons_self, rfl⟩
    · exact (ih h).imp id fun ⟨u, hu, he⟩ => ⟨u, List.mem_cons_of_mem _ hu, he⟩
  | case4 d s v c r hge ih =>
    rcases mem_consTerm h with ⟨rfl, -⟩ | h
    · exact Or.inr ⟨_, List.mem_cons_self, rfl⟩
    · exact (ih h).imp (fun ⟨u, hu, he⟩ => ⟨u, List.mem_cons_of_mem _ hu, he⟩)
        fun ⟨u, hu, he⟩ => ⟨u, List.mem_cons_of_mem _ hu, he⟩
  | case5 w d s v c r hge hne ih =>
    rcases List.mem_cons.1 h with rfl | h
    · exact Or.inl ⟨_, List.mem_cons_self, rfl⟩
    · exact (ih h).imp (fun ⟨u, hu, he⟩ => ⟨u, List.mem_cons_of_mem _ hu, he⟩) id

theorem pairwise_addTerms {a b : List (Var × Rat)}
    (ha : a.Pairwise fun s t => s.1.index < t.1.index)
    (hb : b.Pairwise fun s t => s.1.index < t.1.index) :
    (addTerms a b).Pairwise fun s t => s.1.index < t.1.index := by
  fun_induction addTerms a b with
  | case1 terms => exact ha
  | case2 v c r ih =>
    obtain ⟨hv, hr⟩ := List.pairwise_cons.1 hb
    refine pairwise_consTerm (ih ha hr) fun t ht => ?_
    rcases mem_addTerms ht with ⟨s, hs, -⟩ | ⟨s, hs, he⟩
    · exact absurd hs List.not_mem_nil
    · exact he ▸ hv s hs
  | case3 w d s v c r hlt ih =>
    obtain ⟨hv, hr⟩ := List.pairwise_cons.1 hb
    obtain ⟨hw, hs⟩ := List.pairwise_cons.1 ha
    refine pairwise_consTerm (ih ha hr) fun t ht => ?_
    rcases mem_addTerms ht with ⟨u, hu, he⟩ | ⟨u, hu, he⟩
    · rcases List.mem_cons.1 hu with rfl | hu
      · exact he ▸ hlt
      · exact he ▸ hlt.trans (hw u hu)
    · exact he ▸ hv u hu
  | case4 d s v c r hge ih =>
    obtain ⟨hv, hr⟩ := List.pairwise_cons.1 hb
    obtain ⟨hw, hs⟩ := List.pairwise_cons.1 ha
    refine pairwise_consTerm (ih hs hr) fun t ht => ?_
    rcases mem_addTerms ht with ⟨u, hu, he⟩ | ⟨u, hu, he⟩
    · exact he ▸ hw u hu
    · exact he ▸ hv u hu
  | case5 w d s v c r hge hne ih =>
    obtain ⟨hv, hr⟩ := List.pairwise_cons.1 hb
    obtain ⟨hw, hs⟩ := List.pairwise_cons.1 ha
    refine List.pairwise_cons.2 ⟨fun t ht => ?_, ih hs hb⟩
    have hwv : w.index < v.index := by
      have hindex : v.index ≠ w.index := fun h => hne (Var.ext_index h)
      omega
    rcases mem_addTerms ht with ⟨u, hu, he⟩ | ⟨u, hu, he⟩
    · exact he ▸ hw u hu
    · rcases List.mem_cons.1 hu with rfl | hu
      · exact he ▸ hwv
      · exact he ▸ hwv.trans (hv u hu)

theorem nonzero_addTerms {a b : List (Var × Rat)} (ha : ∀ t ∈ a, t.2 ≠ 0) :
    ∀ t ∈ addTerms a b, t.2 ≠ 0 := by
  intro t ht
  fun_induction addTerms a b with
  | case1 terms => exact ha t ht
  | case2 v c r ih =>
    rcases mem_consTerm ht with ⟨rfl, hc⟩ | ht
    · exact hc
    · exact ih ha ht
  | case3 w d s v c r hlt ih =>
    rcases mem_consTerm ht with ⟨rfl, hc⟩ | ht
    · exact hc
    · exact ih ha ht
  | case4 d s v c r hge ih =>
    rcases mem_consTerm ht with ⟨rfl, hc⟩ | ht
    · exact hc
    · exact ih (fun u hu => ha u (List.mem_cons_of_mem _ hu)) ht
  | case5 w d s v c r hge hne ih =>
    rcases List.mem_cons.1 ht with rfl | ht
    · exact ha _ List.mem_cons_self
    · exact ih (fun u hu => ha u (List.mem_cons_of_mem _ hu)) ht

theorem canonical_ofConst (c : Rat) : Canonical (ofConst c) :=
  ⟨List.Pairwise.nil, fun _ h => absurd h List.not_mem_nil⟩

theorem canonical_zero : Canonical 0 := canonical_ofConst 0

theorem canonical_term (v : Var) (c : Rat) : Canonical (term v c) := by
  refine ⟨pairwise_consTerm List.Pairwise.nil fun _ h => absurd h List.not_mem_nil, ?_⟩
  intro t ht
  rcases mem_consTerm ht with ⟨rfl, hc⟩ | ht
  · exact hc
  · exact absurd ht List.not_mem_nil

theorem Canonical.add {a b : LinearExpr Rat} (ha : Canonical a) (hb : Canonical b) :
    Canonical (a + b) :=
  ⟨pairwise_addTerms ha.ascending hb.ascending, nonzero_addTerms ha.nonzero⟩

theorem Canonical.scale {e : LinearExpr Rat} (he : Canonical e) (k : Rat) :
    Canonical (e.scale k) := by
  unfold LinearExpr.scale
  split
  · exact canonical_zero
  · next h =>
    have hk : k ≠ 0 := by simpa using h
    refine ⟨List.pairwise_map.2 he.ascending, fun t ht => ?_⟩
    obtain ⟨s, hs, rfl⟩ := List.mem_map.1 ht
    exact mul_ne_zero (he.nonzero s hs) hk

theorem Canonical.sub {a b : LinearExpr Rat} (ha : Canonical a) (hb : Canonical b) :
    Canonical (a - b) :=
  ha.add (hb.scale (-1))

theorem Canonical.sum {es : List (LinearExpr Rat)} (h : ∀ e ∈ es, Canonical e) :
    Canonical (sum es) := by
  have hfold : ∀ (l : List (LinearExpr Rat)) (e : LinearExpr Rat), Canonical e →
      (∀ a ∈ l, Canonical a) → Canonical (l.foldl (· + ·) e) := by
    intro l
    induction l with
    | nil => intro e he _; exact he
    | cons a l ih =>
      intro e he hl
      exact ih (e + a) (he.add (hl a List.mem_cons_self))
        fun b hb => hl b (List.mem_cons_of_mem _ hb)
  exact hfold es 0 canonical_zero h

/-- Terms without a column give it no weight. -/
theorem weightOf_of_forall_ne {v : Var} {terms : List (Var × Rat)} (h : ∀ t ∈ terms, t.1 ≠ v) :
    weightOf (fun w => if w = v then 1 else 0) terms = 0 := by
  apply List.sum_eq_zero
  intro q hq
  obtain ⟨t, ht, rfl⟩ := List.mem_map.1 hq
  simp only [if_neg (h t ht), mul_zero]

/-- The first column of a canonical expression is not among the others. -/
theorem coeff_head {v : Var} {c : Rat} {terms : List (Var × Rat)}
    (h : ((v, c) :: terms).Pairwise fun s t => s.1.index < t.1.index) :
    weightOf (fun w => if w = v then 1 else 0) ((v, c) :: terms) = c := by
  have hrest : weightOf (fun w => if w = v then 1 else 0) terms = 0 :=
    weightOf_of_forall_ne fun t ht heq =>
      ((List.pairwise_cons.1 h).1 t ht).ne' (congrArg Var.index heq)
  rw [weightOf_cons, if_pos rfl, mul_one, hrest, add_zero]

theorem isConst_iff {e : LinearExpr Rat} (he : Canonical e) :
    e.isConst = true ↔ ∀ v, e.coeff v = 0 := by
  constructor
  · intro h v
    have hnil : e.terms = [] := by simpa [isConst] using h
    unfold coeff weight
    rw [hnil, weightOf_nil]
  · intro h
    cases hterms : e.terms with
    | nil => simp [isConst, hterms]
    | cons t terms =>
      obtain ⟨v, c⟩ := t
      have hc : e.coeff v = c := by
        unfold coeff weight
        rw [hterms]
        exact coeff_head (hterms ▸ he.ascending)
      have hne : c ≠ 0 := he.nonzero (v, c) (by rw [hterms]; exact List.mem_cons_self)
      exact absurd (hc.symm.trans (h v)) hne

end LinearExpr

end SupplyNet
