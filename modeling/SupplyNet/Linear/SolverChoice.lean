import SupplyNet.Linear.Simplex
import SupplyNet.Text.Blank

/-!
The solvers by name.
-/
set_option autoImplicit false

namespace SupplyNet

inductive SolverChoice
  | simplex
  deriving DecidableEq

structure UnknownSolver where
  name : String
  deriving DecidableEq

def UnknownSolver.message (e : UnknownSolver) : String :=
  s!"unknown solver '{e.name}', available solvers: minilp"

namespace SolverChoice

/-- Blanks around the name and the case of ASCII letters do not matter. -/
def read (text : String) : Except UnknownSolver SolverChoice :=
  match String.ofList ((Text.trim text.toList).map Char.toLower) with
  | "minilp" | "default" => .ok simplex
  | name => .error ⟨name⟩

def name : SolverChoice → String
  | simplex => "minilp"

def solver {K : Type} [Scalar K] : SolverChoice → Solver K
  | simplex => Linear.simplex

end SolverChoice

end SupplyNet
