import SupplyNet.Linear.Model

/-!
Linear programs: what a solver is given of a model, and what it may answer.
-/
set_option autoImplicit false

namespace SupplyNet

/-- A column without a lower bound is free. -/
structure Program (K : Type) where
  lowers : Array (Option K)
  constraints : Array (Constraint K)
  objective : LinearExpr K

inductive Outcome (K : Type)
  | optimal (values : Array K)
  | infeasible
  | unbounded
  | failed (reason : String)

/-- A way to solve linear programs. -/
abbrev Solver (K : Type) := Program K → Outcome K

namespace Program

variable {K : Type} [Scalar K]

def Feasible (p : Program K) (x : Var → K) : Prop :=
  (∀ i l, p.lowers[i]? = some (some l) → l ≤ x ⟨i⟩) ∧ ∀ c ∈ p.constraints, c.Holds x

/-- Feasible, and at no greater cost than any other feasible assignment. -/
def Minimal (p : Program K) (x : Var → K) : Prop :=
  p.Feasible x ∧ ∀ y, p.Feasible y → p.objective.eval x ≤ p.objective.eval y

end Program

def Model.program {K : Type} [Scalar K] (m : Model K) : Program K :=
  ⟨m.columns.map (·.lower), m.constraints, m.objective⟩

end SupplyNet
