import SupplyNet.Scalar

/-!
Tableaux: a system of linear equations solved for some of its variables, the basic ones, while each
of the others rests at a bound. A pivot exchanges a basic variable for another one.
-/
set_option autoImplicit false

namespace SupplyNet.Linear

/-- What values a variable may take. -/
inductive Range (K : Type)
  | free
  | atLeast (lower : K)
  | fixed (value : K)

namespace Range

variable {K : Type} [Scalar K]

/-- A lower bound above all finite numbers leaves no other value, and one below them none out. -/
def ofLower : Option K → Range K
  | none => free
  | some l => if Scalar.isFinite l then atLeast l else if l < 0 then free else fixed l

def lower? : Range K → Option K
  | free => none
  | atLeast l => some l
  | fixed x => some x

def upper? : Range K → Option K
  | fixed x => some x
  | _ => none

/-- The value of a variable that is not basic. -/
def rest (range : Range K) : K := range.lower?.getD 0

def mayRise : Range K → Bool
  | fixed _ => false
  | _ => true

def mayFall : Range K → Bool
  | free => true
  | _ => false

def contains (range : Range K) (x : K) : Bool :=
  range.lower?.all (· ≤ x) && range.upper?.all (x ≤ ·)

/-- How far a value is outside, if it is so by more than the tolerance. -/
def miss? (tolerance : K) (range : Range K) (x : K) : Option K :=
  match range.lower?.filter (x < · - tolerance) with
  | some l => some (l - x)
  | none => (range.upper?.filter (· + tolerance < x)).map (x - ·)

/-- How far a value may move, if there is a bound to it; not at all if it is past the bound. -/
def room? (range : Range K) (x : K) (rises : Bool) : Option K :=
  if rises then range.upper?.map fun u => if x < u then u - x else 0
  else range.lower?.map fun l => if l < x then x - l else 0

end Range

/-- The variables are numbered. `basic` holds the variable of each row and `values` its value;
`nonbasic` holds the variable of each column and `prices` what a unit of it costs. A basic variable
falls by its row's coefficient for each unit that the variable of a column rises. -/
structure Tableau (K : Type) where
  ranges : Array (Range K)
  basic : Array Nat
  values : Array K
  nonbasic : Array Nat
  prices : Array K
  rows : Array (Array K)

namespace Tableau

variable {K : Type} [Scalar K]

def range (t : Tableau K) (v : Nat) : Range K := t.ranges[v]?.getD .free

def rowRange (t : Tableau K) (r : Nat) : Range K := t.range (t.basic[r]?.getD 0)

def columnRange (t : Tableau K) (c : Nat) : Range K := t.range (t.nonbasic[c]?.getD 0)

def rowValue (t : Tableau K) (r : Nat) : K := t.values[r]?.getD 0

def price (t : Tableau K) (c : Nat) : K := t.prices[c]?.getD 0

def row (t : Tableau K) (r : Nat) : Array K := t.rows[r]?.getD #[]

def coeff (t : Tableau K) (r c : Nat) : K := (t.row r)[c]?.getD 0

def rowIndices (t : Tableau K) : List Nat := List.range t.basic.size

def columnIndices (t : Tableau K) : List Nat := List.range t.nonbasic.size

/-- The value of a variable. -/
def value (t : Tableau K) (v : Nat) : K :=
  match t.basic.findIdx? (· = v) with
  | some r => t.rowValue r
  | none => (t.range v).rest

/-- Coefficients without `k` times other ones. -/
def subMul (coeffs : Array K) (k : K) (others : Array K) : Array K :=
  coeffs.zipWith (fun a b => if b == 0 then a else a - k * b) others

/-- Lets the basic variable of row `r` go to rest, and the variable of column `c` make up for it:
the row is solved for the latter, which is then replaced in the other rows and in the prices. -/
def pivot (t : Tableau K) (r c : Nat) : Tableau K :=
  let leaving := t.basic[r]?.getD 0
  let entering := t.nonbasic[c]?.getD 0
  let a := t.coeff r c
  let step := (t.rowValue r - (t.range leaving).rest) / a
  let solved := ((t.row r).map (· / a)).setIfInBounds c (1 / a)
  let replaced (coeffs : Array K) : Array K :=
    let k := coeffs[c]?.getD 0
    if k == 0 then coeffs else subMul (coeffs.setIfInBounds c 0) k solved
  { t with
    basic := t.basic.setIfInBounds r entering
    values := t.values.mapIdx fun i x =>
      if i = r then (t.range entering).rest + step
      else if t.coeff i c == 0 then x
      else x - step * t.coeff i c
    nonbasic := t.nonbasic.setIfInBounds c leaving
    prices := replaced t.prices
    rows := t.rows.mapIdx fun i coeffs => if i = r then solved else replaced coeffs }

/-- With the prices that follow from the costs of the variables. -/
def priced (t : Tableau K) (costs : Array K) : Tableau K :=
  let cost (v : Nat) : K := costs[v]?.getD 0
  let saving (c : Nat) : K :=
    t.rowIndices.foldl (fun total r => total + t.coeff r c * cost (t.basic[r]?.getD 0)) 0
  { t with prices := t.nonbasic.mapIdx fun c v => cost v - saving c }

def isFeasible (t : Tableau K) : Bool :=
  t.rowIndices.all fun r => (t.rowRange r).contains (t.rowValue r)

end Tableau

end SupplyNet.Linear
