import SupplyNet.Linear.Program

/-!
Solutions: the values of all columns of a solved model, under the names of its variables.
-/
set_option autoImplicit false

namespace SupplyNet

/-- Why there is no solution with finite numbers. -/
inductive Unboundedness (K : Type)
  | objective
  | column (index : Nat)
  | value (objective : K)
  deriving DecidableEq

inductive SolveError (K : Type)
  | infeasible
  | unbounded (cause : Unboundedness K)
  | failed (reason : String)
  deriving DecidableEq

def Unboundedness.message {K : Type} [ScalarText K] : Unboundedness K → String
  | .objective => "Unbounded: The objective has no lower bound."
  | .column i => s!"column {i} has no finite value."
  | .value x => s!"objective value {ScalarText.plain x} is not finite."

def SolveError.message {K : Type} [ScalarText K] : SolveError K → String
  | infeasible =>
    "Solver terminated with status infeasible: Infeasible: " ++
      "The problem contains contradictory constraints. No solution exists."
  | unbounded cause => s!"Solver terminated with status unbounded: {cause.message}"
  | failed reason => s!"Solver terminated with status error: {reason}"

structure Solution (K : Type) where
  values : Array K
  objective : K
  named : Array (String × Variable)

namespace Solution

variable {K : Type} [Scalar K]

def eval (s : Solution K) (e : LinearExpr K) : K := e.eval (assignment s.values)

def valueOf (s : Solution K) (v : Var) : K := assignment s.values v

def find? (s : Solution K) (name : String) : Option Variable :=
  (s.named.find? (·.1 = name)).map Prod.snd

def value? (s : Solution K) (name : String) : Option K :=
  match s.find? name with
  | some (.scalar v) => some (s.valueOf v)
  | _ => none

def series? (s : Solution K) (name : String) : Option (Array K) :=
  match s.find? name with
  | some (.series vs) => some (vs.map s.valueOf)
  | _ => none

end Solution

variable {K : Type} [Scalar K]

/-- The solution with the given values, which must be finite, as must be their cost. -/
def Model.solution (m : Model K) (values : Array K) : Except (SolveError K) (Solution K) :=
  match values.findIdx? (!Scalar.isFinite ·) with
  | some i => .error (.unbounded (.column i))
  | none =>
    let objective := m.objective.eval (assignment values)
    if Scalar.isFinite objective then .ok ⟨values, objective, m.named⟩
    else .error (.unbounded (.value objective))

def Model.solve (solver : Solver K) (m : Model K) : Except (SolveError K) (Solution K) :=
  match solver m.program with
  | .optimal values => m.solution values
  | .infeasible => .error .infeasible
  | .unbounded => .error (.unbounded .objective)
  | .failed reason => .error (.failed reason)

end SupplyNet
