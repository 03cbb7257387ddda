import SupplyNet.Keyed
import SupplyNet.Linear.Constraint

/-!
Linear models: named variables, of one column or of one column for each time step, conditions on
the columns and an expression to be minimised. Models are set up by calls that change them in place.
-/
set_option autoImplicit false

namespace SupplyNet

inductive ModelError (K : Type)
  | duplicate (name : String)
  | neverHolds (constraint : String) (relation : Relation) (rhs : K)
  deriving DecidableEq

def ModelError.message {K : Type} [ScalarText K] : ModelError K → String
  | duplicate name => s!"Variable with name {name} already exists."
  | neverHolds constraint relation rhs =>
    s!"Constraint {constraint} can never hold: 0 {relation.text} {ScalarText.plain rhs}."

structure Column (K : Type) where
  name : String
  lower : Option K
  deriving DecidableEq

inductive Variable
  | scalar (column : Var)
  | series (columns : Array Var)
  deriving DecidableEq

/-- Each name leads to the place of a variable of that name, or there is no such variable. -/
def Indexes (indices : Keyed Nat) (named : Array (String × Variable)) : Prop :=
  ∀ name, match indices.find? name with
    | some i => ∃ x, named[i]? = some (name, x)
    | none => ∀ x, (name, x) ∉ named

namespace Indexes

variable {indices : Keyed Nat} {named : Array (String × Variable)} {name : String}

theorem getElem? (h : Indexes indices named) {i : Nat} (hi : indices.find? name = some i) :
    ∃ x, named[i]? = some (name, x) := by
  have hname := h name
  rwa [hi] at hname

theorem not_mem (h : Indexes indices named) (hnone : indices.find? name = none) (x : Variable) :
    (name, x) ∉ named := by
  have hname := h name
  rw [hnone] at hname
  exact hname x

theorem empty : Indexes .empty #[] := by
  intro name
  simp [Keyed.find?_empty]

theorem getElem?_push (h : Indexes indices named) {i : Nat} (hi : indices.find? name = some i)
    (entry : String × Variable) : ∃ x, (named.push entry)[i]? = some (name, x) := by
  obtain ⟨x, hx⟩ := h.getElem? hi
  have hlt : i < named.size := (Array.getElem?_eq_some_iff.1 hx).1
  exact ⟨x, by rw [Array.getElem?_push, if_neg (Nat.ne_of_lt hlt), hx]⟩

/-- The name of a variable that is added may lead to any variable of this name. -/
theorem push (h : Indexes indices named) {x : Variable} {i : Nat}
    (hi : ∃ y, (named.push (name, x))[i]? = some (name, y)) :
    Indexes (indices.insert name i) (named.push (name, x)) := by
  intro key
  rw [Keyed.find?_insert]
  by_cases hkey : key = name
  · subst hkey
    rw [if_pos rfl]
    exact hi
  · rw [if_neg hkey]
    cases hfind : indices.find? key with
    | none =>
      intro y hy
      rcases Array.mem_push.1 hy with hy | hy
      · exact h.not_mem hfind y hy
      · exact hkey (Prod.mk.inj hy).1
    | some j => exact h.getElem?_push hfind (name, x)

end Indexes

/-- `named` holds the variables in the order in which they were added, and `indices` the place of
each name in it. -/
structure Model (K : Type) where
  columns : Array (Column K)
  named : Array (String × Variable)
  indices : Keyed Nat
  constraints : Array (Constraint K)
  objective : LinearExpr K
  indexed : Indexes indices named

namespace Model

variable {K α : Type}

/-- Calls change a model in place. A call that fails leaves behind what it has changed. -/
abbrev Call (K : Type) : Type → Type := EStateM (ModelError K) (Model K)

/-- What a call returns and the model that it makes, if it does not fail. -/
def Call.made (call : Call K α) (m : Model K) : Except (ModelError K) (α × Model K) :=
  match call.run m with
  | .ok a m' => .ok (a, m')
  | .error fault _ => .error fault

def registered (m : Model K) (name : String) (x : Variable) : Model K :=
  { m with
    named := m.named.push (name, x)
    indices := m.indices.insert name m.named.size
    indexed := m.indexed.push ⟨x, Array.getElem?_push_size⟩ }

variable [Scalar K]

def empty : Model K := ⟨#[], #[], .empty, #[], 0, .empty⟩

/-! ## Variables -/

def find? (m : Model K) (name : String) : Option Variable :=
  (m.indices.find? name).bind fun i => m.named[i]?.map Prod.snd

namespace Call

def checkUnique (name : String) : Call K Unit := do
  if ((← get).indices.find? name).isSome then throw (.duplicate name)

def column (name : String) (lower : Option K) : Call K Var :=
  modifyGet fun m => (⟨m.columns.size⟩, { m with columns := m.columns.push ⟨name, lower⟩ })

def register (name : String) (x : Variable) : Call K Unit := modify (·.registered name x)

def scalar (name : String) (lower : Option K) : Call K Var := do
  checkUnique name
  let v ← column name lower
  register name (.scalar v)
  return v

/-- The column of each time step is named for the variable and the step. -/
def series (name : String) (lower : Option K) (size : Nat) : Call K (Array Var) := do
  checkUnique name
  let vs ← (List.range size).mapM fun t => column s!"{name}[{t}]" lower
  register name (.series vs.toArray)
  return vs.toArray

end Call

def addScalar (m : Model K) (name : String) (lower : Option K) :
    Except (ModelError K) (Var × Model K) :=
  (Call.scalar name lower).made m

def addSeries (m : Model K) (name : String) (lower : Option K) (size : Nat) :
    Except (ModelError K) (Array Var × Model K) :=
  (Call.series name lower size).made m

def scalar? (m : Model K) (name : String) : Option Var :=
  match m.find? name with
  | some (.scalar v) => some v
  | _ => none

def series? (m : Model K) (name : String) : Option (Array Var) :=
  match m.find? name with
  | some (.series vs) => some vs
  | _ => none

def columnName (m : Model K) (v : Var) : String :=
  match m.columns[v.index]? with
  | some column => column.name
  | none => "<unknown>"

/-! ## Conditions -/

/-- A condition without columns is decided at once. It is dropped if it holds but for rounding. -/
def Call.condition (c : Constraint K) : Call K Unit := do
  let c := c.normalized
  if c.expr.isConst then
    unless c.holdsWithin (fun _ => 0) 1e-9 do
      throw (.neverHolds c.name c.relation c.rhs)
  else modify fun m => { m with constraints := m.constraints.push c }

def Call.objective (e : LinearExpr K) : Call K Unit := modify fun m => { m with objective := e }

def addConstraint (m : Model K) (c : Constraint K) : Except (ModelError K) (Model K) :=
  ((Call.condition c).made m).map Prod.snd

def addConstraints (m : Model K) (cs : List (Constraint K)) : Except (ModelError K) (Model K) :=
  cs.foldlM addConstraint m

/-- The first one of that name. -/
def constraint? (m : Model K) (name : String) : Option (Constraint K) :=
  m.constraints.find? (·.name = name)

/-! ## Text -/

def exprText [ScalarText K] (m : Model K) (e : LinearExpr K) : String := e.text m.columnName

/-- The name of a condition, then each term, the relation and the right side on a line. -/
def constraintText [ScalarText K] (m : Model K) (c : Constraint K) : String :=
  let terms := c.expr.terms.map fun t =>
    s!"{ScalarText.signedSixPlaces t.2} * {m.columnName t.1}\n"
  s!"\n{c.name}:\n{String.join terms}{c.relation.text}\n{ScalarText.sixPlaces c.rhs}\n"

def constraintsText [ScalarText K] (m : Model K) : String :=
  String.join (m.constraints.toList.map m.constraintText)

end Model

end SupplyNet
