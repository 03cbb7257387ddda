import SupplyNet.Linear.Program
import SupplyNet.Linear.Tableau

/-!
The simplex method for rounded numbers: both its primal and its dual form, along steepest edges, and
with ratio tests that prefer great coefficients to exact bounds. Rows that agree but for rounding
count as one, since what remains of their difference is never pivoted on.

The variables of a tableau are the columns of a program, followed by a slack for each condition.
-/
set_option autoImplicit false

namespace SupplyNet.Linear

variable {K : Type} [Scalar K]

/-- Numbers that differ by less are not told apart. -/
def tolerance : K := 1e-8

/-- The item for which a value is greatest; of several, the first. An unordered value is none. -/
def greatestBy {α : Type} (f : α → K) (items : List α) : Option α :=
  match items.filter (fun a => !Scalar.unordered (f a)) with
  | [] => none
  | a :: r => some (r.foldl (fun best b => if f best < f b then b else best) a)

/-! ## Ratio tests -/

/-- Something that bounds a step: it leaves `room` at `rate` per unit of the step. -/
structure Bounding (K : Type) where
  index : Nat
  room : K
  rate : K

/-- The first bound to be reached: of those that are reached within the tolerance of it, the one
with the greatest rate. -/
def firstBound? (bounds : List (Bounding K)) : Option Nat := do
  let nearest ← greatestBy (fun b => -((b.room + tolerance) / b.rate)) bounds
  let limit := (nearest.room + tolerance) / nearest.rate
  let first ← greatestBy (·.rate) (bounds.filter fun b => b.room / b.rate ≤ limit)
  return first.index

namespace Tableau

/-! ## The dual method: while a basic variable is out of its range, it leaves the basis -/

/-- How much, squared, the equation of a row weighs in terms of the conditions, which are numbered
from `n`. -/
def rowWeight (n : Nat) (t : Tableau K) (r : Nat) : K :=
  let own : K := if n ≤ t.basic[r]?.getD 0 then 1 else 0
  t.columnIndices.foldl (fun total c =>
    if n ≤ t.nonbasic[c]?.getD 0 then total + t.coeff r c * t.coeff r c else total) own

/-- The row whose variable misses its range most, for its weight. -/
def missingRow? (n : Nat) (t : Tableau K) : Option Nat :=
  let rows := t.rowIndices.filterMap fun r =>
    ((t.rowRange r).miss? tolerance (t.rowValue r)).map fun miss =>
      (r, miss * miss / t.rowWeight n r)
  (greatestBy Prod.snd rows).map Prod.fst

/-- The price of a column, as far as it does not already lower the cost. -/
def clampedPrice (t : Tableau K) (c : Nat) : K :=
  let price := t.price c
  if (t.columnRange c).mayFall || !(price < 0) then price else 0

/-- The column that brings row `r` into its range at the least cost. -/
def restoringColumn? (t : Tableau K) (r : Nat) : Option Nat :=
  let rises : Bool := t.rowValue r < (t.rowRange r).rest
  firstBound? <| t.columnIndices.filterMap fun c =>
    let a := t.coeff r c
    let range := t.columnRange c
    let serves := (tolerance ≤ a && if rises then range.mayFall else range.mayRise) ||
      (a ≤ -tolerance && if rises then range.mayRise else range.mayFall)
    if serves then some ⟨c, Scalar.abs (t.clampedPrice c), Scalar.abs a⟩ else none

/-- Brings all variables into their ranges. -/
def restore (n : Nat) : (fuel : Nat) → Tableau K → Except (Outcome K) (Tableau K)
  | 0, _ => .error (.failed "too many pivots")
  | fuel + 1, t =>
    match t.missingRow? n with
    | none => .ok t
    | some r =>
      match t.restoringColumn? r with
      | none => .error .infeasible
      | some c => restore n fuel (t.pivot r c)

/-! ## The primal method: while a move lowers the cost, its variable enters the basis -/

/-- The square of the length by which all variables move for each unit of a column. -/
def columnWeight (t : Tableau K) (c : Nat) : K :=
  t.rowIndices.foldl (fun total r => total + t.coeff r c * t.coeff r c) 1

/-- The column that lowers the cost most, for its weight. -/
def improvingColumn? (t : Tableau K) : Option Nat :=
  let columns := t.columnIndices.filter fun c =>
    (t.price c < -tolerance && (t.columnRange c).mayRise) ||
      (tolerance < t.price c && (t.columnRange c).mayFall)
  greatestBy (fun c => t.price c * t.price c / t.columnWeight c) columns

/-- The row that first bounds the move of column `c`. -/
def boundingRow? (t : Tableau K) (c : Nat) : Option Nat :=
  let rises : Bool := t.price c < 0
  firstBound? <| t.rowIndices.filterMap fun r =>
    let a := t.coeff r c
    if Scalar.abs a < tolerance then none
    else ((t.rowRange r).room? (t.rowValue r) (rises != (0 < a))).map (⟨r, ·, Scalar.abs a⟩)

/-- Lowers the cost as far as it goes. -/
def improve : (fuel : Nat) → Tableau K → Except (Outcome K) (Tableau K)
  | 0, _ => .error (.failed "too many pivots")
  | fuel + 1, t =>
    match t.improvingColumn? with
    | none => .ok t
    | some c =>
      match t.boundingRow? c with
      | none => .error .unbounded
      | some r => improve fuel (t.pivot r c)

end Tableau

/-! ## Programs -/

/-- The coefficients and the number of a condition that its left side is at most, or equal to. -/
def boundOf (c : Constraint K) : LinearExpr K × K :=
  if c.relation = .ge then (-c.expr, -c.rhs) else (c.expr, c.rhs)

/-- The coefficients of `n` columns. -/
def denseOf (n : Nat) (e : LinearExpr K) : Array K :=
  e.terms.foldl (fun coeffs t => coeffs.setIfInBounds t.1.index t.2) (Array.replicate n 0)

def slackRange (c : Constraint K) : Range K := if c.relation = .eq then .fixed 0 else .atLeast 0

/-- All slacks basic, and all columns at rest. -/
def tableauOf (p : Program K) : Tableau K :=
  let n := p.lowers.size
  let ranges := p.lowers.map Range.ofLower
  let resting := assignment (ranges.map Range.rest)
  let bounds := p.constraints.map boundOf
  { ranges := ranges ++ p.constraints.map slackRange
    basic := (Array.range p.constraints.size).map (n + ·)
    values := bounds.map fun (e, x) => x - e.eval resting
    nonbasic := Array.range n
    prices := denseOf n p.objective
    rows := bounds.map fun (e, _) => denseOf n e }

/-- Whether no move from where all columns are at rest lowers the cost. -/
def isDualFeasible (t : Tableau K) : Bool :=
  t.columnIndices.all fun c =>
    match t.columnRange c with
    | .free => t.price c == 0
    | .atLeast _ => !(t.price c < 0)
    | .fixed _ => true

/-- Costs under which no move from rest lowers the cost. -/
def awayFromRest (t : Tableau K) : Tableau K :=
  let price (v : Nat) : K :=
    match t.range v with
    | .atLeast _ => 1
    | _ => 0
  { t with prices := t.nonbasic.map price }

/-- In practice a few pivots for each variable are enough. -/
def pivotLimit (p : Program K) : Nat := 100 * (p.lowers.size + p.constraints.size + 1)

/-- First the ranges of the variables are met, if need be at costs of their own, and then the cost
is lowered. -/
def optimum (p : Program K) : Except (Outcome K) (Tableau K) := do
  let n := p.lowers.size
  let start := tableauOf p
  let t ←
    if start.isFeasible then pure start
    else (if isDualFeasible start then start else awayFromRest start).restore n (pivotLimit p)
  if isDualFeasible start then return t
  else (t.priced (denseOf n p.objective)).improve (pivotLimit p)

/-- Solves a program. The conditions may be missed by the tolerance. -/
def solveByPivots (p : Program K) : Outcome K :=
  match optimum p with
  | .ok t => .optimal ((Array.range p.lowers.size).map t.value)
  | .error outcome => outcome

/-! ## Exact numbers -/

def exactExpr? (e : LinearExpr K) : Option (LinearExpr Rat) := do
  let terms ← e.terms.mapM fun t => (Scalar.toRat? t.2).map (t.1, ·)
  return ⟨terms, ← Scalar.toRat? e.const⟩

def exactConstraint? (c : Constraint K) : Option (Constraint Rat) := do
  return ⟨c.name, ← exactExpr? c.expr, c.relation, ← Scalar.toRat? c.rhs⟩

def exactLower? : Option K → Option (Option Rat)
  | none => some none
  | some l => (Scalar.toRat? l).map some

/-- The program in exact numbers, if all of its numbers are finite. The constant of the objective
makes no difference to the values. -/
def exactProgram? (p : Program K) : Option (Program Rat) := do
  return ⟨← p.lowers.mapM exactLower?, ← p.constraints.mapM exactConstraint?,
    ← exactExpr? { p.objective with const := 0 }⟩

/-- The same outcome with the nearest scalars. -/
def roundedOutcome : Outcome Rat → Outcome K
  | .optimal values => .optimal (values.map Scalar.ofRat)
  | .infeasible => .infeasible
  | .unbounded => .unbounded
  | .failed reason => .failed reason

/-- Among great numbers the rounding errors of the pivots may exceed the tolerance, so that a
program seems to have no solution; it is then solved once more with exact numbers. -/
def simplex : Solver K := fun p =>
  match solveByPivots p with
  | .optimal values => .optimal values
  | .unbounded => .unbounded
  | outcome =>
    match exactProgram? p with
    | some q => roundedOutcome (solveByPivots q)
    | none => outcome

end SupplyNet.Linear
