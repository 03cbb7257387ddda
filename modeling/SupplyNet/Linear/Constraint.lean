import SupplyNet.Linear.Expr

/-!
Conditions on the columns of a model: a linear expression on the left, a relation and a number.
-/
set_option autoImplicit false

namespace SupplyNet

inductive Relation
  | eq
  | le
  | ge
  deriving DecidableEq

def Relation.text : Relation → String
  | eq => "="
  | le => "<="
  | ge => ">="

structure Constraint (K : Type) where
  name : String
  expr : LinearExpr K
  relation : Relation
  rhs : K
  deriving DecidableEq

namespace Constraint

variable {K : Type} [Scalar K]

def Holds (c : Constraint K) (x : Var → K) : Prop :=
  match c.relation with
  | .eq => c.expr.eval x = c.rhs
  | .le => c.expr.eval x ≤ c.rhs
  | .ge => c.rhs ≤ c.expr.eval x

/-- Whether the two sides are no further from the relation than the tolerance. -/
def holdsWithin (c : Constraint K) (x : Var → K) (tolerance : K) : Bool :=
  let lhs := c.expr.eval x
  match c.relation with
  | .eq => Scalar.abs (lhs - c.rhs) ≤ tolerance
  | .le => lhs ≤ c.rhs + tolerance
  | .ge => c.rhs - tolerance ≤ lhs

/-- The same condition with the constant of the left side moved to the right. -/
def normalized (c : Constraint K) : Constraint K :=
  { c with expr := { c.expr with const := 0 }, rhs := c.rhs - c.expr.const }

end Constraint

end SupplyNet
