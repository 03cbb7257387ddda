import SupplyNet.Scalar.Text

/-!
Linear expressions over the columns of a model. Each column occurs in one term at most, the terms
are in ascending order of the columns, and a term that cancels out is dropped.
-/
set_option autoImplicit false

namespace SupplyNet

/-- A column of a model, by its position. -/
structure Var where
  index : Nat
  deriving DecidableEq

structure LinearExpr (K : Type) where
  terms : List (Var × K)
  const : K
  deriving DecidableEq

namespace LinearExpr

variable {K : Type} [Scalar K]

def ofConst (c : K) : LinearExpr K := ⟨[], c⟩

instance : Zero (LinearExpr K) := ⟨ofConst 0⟩

instance : BEq (LinearExpr K) := ⟨fun a b => a.terms == b.terms && a.const == b.const⟩

def isConst (e : LinearExpr K) : Bool := e.terms.isEmpty

/-! ## Terms -/

/-- The term in front of the others, unless its coefficient is zero. -/
def consTerm (v : Var) (c : K) (terms : List (Var × K)) : List (Var × K) :=
  if c == 0 then terms else (v, c) :: terms

/-- The terms of two expressions in the order of their columns. -/
def addTerms : List (Var × K) → List (Var × K) → List (Var × K)
  | terms, [] => terms
  | [], (v, c) :: r => consTerm v (0 + c) (addTerms [] r)
  | (w, d) :: s, (v, c) :: r =>
    if v.index < w.index then consTerm v (0 + c) (addTerms ((w, d) :: s) r)
    else if v = w then consTerm v (d + c) (addTerms s r)
    else (w, d) :: addTerms s ((v, c) :: r)
termination_by terms others => terms.length + others.length

def term (v : Var) (c : K) : LinearExpr K := ⟨consTerm v (0 + c) [], 0⟩

def ofVar (v : Var) : LinearExpr K := term v 1

/-! ## Arithmetic -/

instance : Add (LinearExpr K) := ⟨fun a b => ⟨addTerms a.terms b.terms, a.const + b.const⟩⟩

/-- Nothing remains of an expression that is scaled by zero. -/
def scale (e : LinearExpr K) (k : K) : LinearExpr K :=
  if k == 0 then 0 else ⟨e.terms.map fun t => (t.1, t.2 * k), e.const * k⟩

instance : Neg (LinearExpr K) := ⟨fun e => e.scale (-1)⟩

instance : Sub (LinearExpr K) := ⟨fun a b => a + -b⟩

def sum (es : List (LinearExpr K)) : LinearExpr K := es.foldl (· + ·) 0

/-- The value under an assignment of numbers to the columns. -/
def eval (e : LinearExpr K) (x : Var → K) : K :=
  e.terms.foldl (fun total t => total + t.2 * x t.1) 0 + e.const

/-! ## Text -/

/-- Six places for each coefficient. The constant is left out if it is zero and not alone. -/
def text [ScalarText K] (name : Var → String) (e : LinearExpr K) : String :=
  let terms := e.terms.map fun t => ScalarText.signedSixPlaces t.2 ++ " * " ++ name t.1
  let const := if !(e.const == 0) || e.isConst then [ScalarText.signedSixPlaces e.const] else []
  " ".intercalate (terms ++ const)

end LinearExpr

/-- The numbers of a list, and zero for a column past its end. -/
def assignment {K : Type} [Scalar K] (values : Array K) (v : Var) : K := values[v.index]?.getD 0

end SupplyNet
