import Mathlib
import SupplyNet.Network.Rows
import SupplyNet.Proofs.Checked
import SupplyNet.Proofs.Linear.Expr

/-!
The conditions of a model. A condition is stored with its constant on the right, unless it has no
columns at all; then it is decided at once.
-/
set_option autoImplicit false

namespace SupplyNet

variable {K : Type} [Scalar K]

namespace Constraint

instance decidableHolds (x : Var → Rat) : (c : Constraint Rat) → Decidable (c.Holds x)
  | ⟨_, expr, .eq, rhs⟩ => inferInstanceAs (Decidable (expr.eval x = rhs))
  | ⟨_, expr, .le, rhs⟩ => inferInstanceAs (Decidable (expr.eval x ≤ rhs))
  | ⟨_, expr, .ge, rhs⟩ => inferInstanceAs (Decidable (rhs ≤ expr.eval x))

/-- A condition without columns must hold but for rounding. -/
def Admissible (c : Constraint K) : Prop :=
  c.expr.isConst = true → c.normalized.holdsWithin (fun _ => 0) 1e-9 = true

/-- What a model stores of some conditions. -/
def stored (cs : List (Constraint K)) : List (Constraint K) :=
  (cs.filter fun c => !c.expr.isConst).map normalized

theorem stored_append (cs ds : List (Constraint K)) :
    stored (cs ++ ds) = stored cs ++ stored ds := by
  unfold stored
  rw [List.filter_append, List.map_append]

theorem mem_stored {cs : List (Constraint K)} {c : Constraint K} :
    c ∈ stored cs ↔ ∃ d ∈ cs, d.expr.isConst = false ∧ d.normalized = c := by
  unfold stored
  simp [and_assoc]

theorem eval_normalized (c : Constraint Rat) (x : Var → Rat) :
    c.normalized.expr.eval x = c.expr.eval x - c.expr.const := by
  rw [LinearExpr.eval_eq, LinearExpr.eval_eq]
  change c.expr.weight x + 0 = c.expr.weight x + c.expr.const - c.expr.const
  ring

/-- Moving the constant to the other side changes nothing. -/
theorem holds_normalized (c : Constraint Rat) (x : Var → Rat) :
    c.normalized.Holds x ↔ c.Holds x := by
  have heval := c.eval_normalized x
  obtain ⟨name, expr, relation, rhs⟩ := c
  dsimp only at heval
  cases relation with
  | eq =>
    change (normalized ⟨name, expr, .eq, rhs⟩).expr.eval x = rhs - expr.const ↔ expr.eval x = rhs
    rw [heval]
    exact sub_left_inj
  | le =>
    change (normalized ⟨name, expr, .le, rhs⟩).expr.eval x ≤ rhs - expr.const ↔ expr.eval x ≤ rhs
    rw [heval]
    exact sub_le_sub_iff_right _
  | ge =>
    change rhs - expr.const ≤ (normalized ⟨name, expr, .ge, rhs⟩).expr.eval x ↔ rhs ≤ expr.eval x
    rw [heval]
    exact sub_le_sub_iff_right _

end Constraint

namespace Model

/-- A condition that may hold is added, unless it has no columns. -/
theorem Call.run_condition {c : Constraint K} (m : Model K) (h : c.Admissible) :
    (condition c).run m =
      .ok () { m with constraints := m.constraints ++ (Constraint.stored [c]).toArray } := by
  have hconst : c.normalized.expr.isConst = c.expr.isConst := rfl
  unfold condition
  dsimp only
  rw [hconst]
  by_cases hc : c.expr.isConst = true
  · have hstored : Constraint.stored [c] = [] := by simp [Constraint.stored, hc]
    rw [if_pos hc, h hc, hstored, Array.append_empty]
    rfl
  · have hstored : Constraint.stored [c] = [c.normalized] := by simp [Constraint.stored, hc]
    rw [if_neg hc, hstored, ← Array.push_eq_append]
    rfl

theorem Call.run_condition_of_not {c : Constraint K} (m : Model K) (h : ¬c.Admissible) :
    (condition c).run m =
      .error (.neverHolds c.name c.relation (c.rhs - c.expr.const)) m := by
  obtain ⟨hc, hfails⟩ := Classical.not_imp.1 h
  have hconst : c.normalized.expr.isConst = true := hc
  unfold condition
  dsimp only
  rw [if_pos hconst, if_neg hfails]
  rfl

theorem addConstraint_eq_ok_iff {m m' : Model K} {c : Constraint K} :
    m.addConstraint c = .ok m' ↔ c.Admissible ∧
      m' = { m with constraints := m.constraints ++ (Constraint.stored [c]).toArray } := by
  unfold addConstraint Call.made
  by_cases h : c.Admissible
  · rw [Call.run_condition m h]
    exact ⟨fun hadd => ⟨h, (Except.ok.inj hadd).symm⟩, fun hadd => congrArg Except.ok hadd.2.symm⟩
  · rw [Call.run_condition_of_not m h]
    exact iff_of_false (fun hadd => nomatch hadd) fun hadd => h hadd.1

theorem addConstraint_eq_error_iff {m : Model K} {c : Constraint K} {fault : ModelError K} :
    m.addConstraint c = .error fault ↔ ¬c.Admissible ∧
      fault = .neverHolds c.name c.relation (c.rhs - c.expr.const) := by
  unfold addConstraint Call.made
  by_cases h : c.Admissible
  · rw [Call.run_condition m h]
    exact iff_of_false (fun hadd => nomatch hadd) fun hadd => hadd.1 h
  · rw [Call.run_condition_of_not m h]
    exact ⟨fun hadd => ⟨h, (Except.error.inj hadd).symm⟩,
      fun hadd => congrArg Except.error hadd.2.symm⟩

theorem addConstraints_eq_ok_iff {m m' : Model K} {cs : List (Constraint K)} :
    m.addConstraints cs = .ok m' ↔ (∀ c ∈ cs, c.Admissible) ∧
      m' = { m with constraints := m.constraints ++ (Constraint.stored cs).toArray } := by
  unfold addConstraints
  induction cs generalizing m with
  | nil =>
    change Except.ok m = Except.ok m' ↔ _
    rw [Except.ok.injEq, eq_comm]
    simp [Constraint.stored]
  | cons c cs ih =>
    rw [List.foldlM_cons, bind_eq_ok_iff]
    have hsplit : Constraint.stored (c :: cs) =
        Constraint.stored [c] ++ Constraint.stored cs := Constraint.stored_append [c] cs
    rw [hsplit, List.forall_mem_cons]
    constructor
    · rintro ⟨m₁, h₁, h⟩
      obtain ⟨hc, rfl⟩ := addConstraint_eq_ok_iff.1 h₁
      obtain ⟨hcs, rfl⟩ := ih.1 h
      exact ⟨⟨hc, hcs⟩, by simp⟩
    · rintro ⟨⟨hc, hcs⟩, rfl⟩
      exact ⟨_, addConstraint_eq_ok_iff.2 ⟨hc, rfl⟩, ih.2 ⟨hcs, by simp⟩⟩

/-- The only fault of a condition is that it can never hold. -/
theorem addConstraints_ne_duplicate {m : Model K} {cs : List (Constraint K)} {name : String} :
    m.addConstraints cs ≠ .error (.duplicate name) := by
  unfold addConstraints
  induction cs generalizing m with
  | nil => exact fun h => absurd h (by simp [pure, Except.pure])
  | cons c cs ih =>
    rw [List.foldlM_cons]
    cases h : m.addConstraint c with
    | ok m' => exact ih
    | error e =>
      intro he
      have hdup : e = .duplicate name := Except.error.inj he
      rw [(addConstraint_eq_error_iff.1 h).2] at hdup
      exact absurd hdup (by simp)

theorem addRows_eq_ok_iff {m m' : Model K} {rows : List (Except (CompileError K) (Rows K))} :
    m.addRows rows = .ok m' ↔ ∃ groups : List (Rows K), rows = groups.map .ok ∧
      (∀ c ∈ groups.flatten, c.Admissible) ∧
      m' = { m with
        constraints := m.constraints ++ (Constraint.stored groups.flatten).toArray } := by
  unfold addRows
  induction rows generalizing m with
  | nil =>
    change Except.ok m = Except.ok m' ↔ _
    rw [Except.ok.injEq, eq_comm]
    constructor
    · intro h
      exact ⟨[], rfl, fun c hc => absurd hc List.not_mem_nil, by simp [h, Constraint.stored]⟩
    · rintro ⟨groups, hrows, -, hm⟩
      rw [List.map_eq_nil_iff.1 hrows.symm] at hm
      simpa [Constraint.stored] using hm
  | cons r rows ih =>
    rw [List.foldlM_cons, bind_eq_ok_iff]
    constructor
    · rintro ⟨m₁, h₁, h⟩
      obtain ⟨cs, rfl, hcs⟩ := bind_eq_ok_iff.1 h₁
      obtain ⟨hadm, rfl⟩ := addConstraints_eq_ok_iff.1 (mapError_eq_ok_iff.1 hcs)
      obtain ⟨groups, rfl, hgroups, rfl⟩ := ih.1 h
      refine ⟨cs :: groups, rfl, ?_, ?_⟩
      · rw [List.flatten_cons]
        exact List.forall_mem_append.2 ⟨hadm, hgroups⟩
      · rw [List.flatten_cons, Constraint.stored_append]
        simp
    · rintro ⟨groups, hrows, hadm, rfl⟩
      obtain ⟨cs, groups, rfl, rfl, rfl⟩ := List.map_eq_cons_iff.1 hrows.symm
      rw [List.flatten_cons] at hadm
      obtain ⟨hcs, hgroups⟩ := List.forall_mem_append.1 hadm
      refine ⟨_, bind_eq_ok_iff.2 ⟨cs, rfl,
        mapError_eq_ok_iff.2 (addConstraints_eq_ok_iff.2 ⟨hcs, rfl⟩)⟩,
        ih.2 ⟨groups, rfl, hgroups, ?_⟩⟩
      rw [List.flatten_cons, Constraint.stored_append]
      simp

/-- Conditions fail to be added as one of them is not made or can never hold. -/
theorem addRows_ne_duplicate {m : Model K} {rows : List (Except (CompileError K) (Rows K))}
    {name : String} (h : ∀ r ∈ rows, r ≠ .error (.model (.duplicate name))) :
    m.addRows rows ≠ .error (.model (.duplicate name)) := by
  unfold addRows
  induction rows generalizing m with
  | nil => exact fun h => absurd h (by simp [pure, Except.pure])
  | cons r rows ih =>
    rw [List.foldlM_cons]
    cases r with
    | error e => exact fun he => h (.error e) List.mem_cons_self (congrArg _ (Except.error.inj he))
    | ok cs =>
      change ((m.addConstraints cs).mapError CompileError.model >>= _) ≠ _
      cases hc : m.addConstraints cs with
      | ok m' => exact ih fun r hr => h r (List.mem_cons_of_mem _ hr)
      | error e =>
        intro he
        have hdup : e = .duplicate name := by simpa [Except.mapError, bind, Except.bind] using he
        exact addConstraints_ne_duplicate (hdup ▸ hc)

end Model

end SupplyNet
