import SupplyNet.Measure.Gauge

/-!
Units of measure: a gauge under a symbol, with conversion factors, products, quotients and powers.
-/
set_option autoImplicit false

namespace SupplyNet

/-- What is wrong with the text of a unit. -/
inductive Measure.Fault
  | unexpected (c : Char)
  | endOfText
  | unknown (symbol : String)
  | bracketMissing
  | exponentExpected
  | exponentOutOfRange
  deriving DecidableEq

def Measure.Fault.message : Measure.Fault → String
  | unexpected c => s!"unexpected character '{c}'"
  | endOfText => "unexpected end of input"
  | unknown symbol => s!"unknown unit '{symbol}'"
  | bracketMissing => "missing closing bracket"
  | exponentExpected => "expected an integer exponent after '^'"
  | exponentOutOfRange => "dimension exponent out of range"

inductive UnitError
  | malformed (text : String) (fault : Measure.Fault)
  | incompatible (source target : String)
  | exponentOutOfRange (symbol : String)
  | noUnit (commodity : String)
  deriving DecidableEq

def UnitError.message : UnitError → String
  | malformed text fault => s!"Invalid unit '{text}': {fault.message}."
  | incompatible source target =>
    s!"Can't convert from '{source}' to '{target}': incompatible dimensions."
  | exponentOutOfRange symbol => s!"Unit '{symbol}' has a dimension exponent out of range."
  | noUnit commodity => s!"No unit defined for commodity '{commodity}'."

namespace Measure

structure Unit (K : Type) extends Gauge K where
  symbol : String
  deriving DecidableEq

namespace Unit

variable {K : Type} [Scalar K]

def one : Unit K := { Gauge.one with symbol := "1" }

def isDimensionless (u : Unit K) : Bool := u.dimension = .dimensionless

/-- Units are the same if their gauges agree, whatever their symbols. -/
instance : BEq (Unit K) := ⟨fun a b => a.agrees b.toGauge⟩

/-- The number of units `b` in one unit `a`. -/
def ratio (a b : Unit K) : Except UnitError K :=
  if a.dimension = b.dimension then .ok (a.scale / b.scale)
  else .error (.incompatible a.symbol b.symbol)

/-! ## Products, quotients and powers -/

/-- A symbol with an operator in it goes into brackets. -/
def enclosed (symbol : String) : String :=
  if symbol.toList.any ['*', '/', '^'].contains then "(" ++ symbol ++ ")" else symbol

def named (symbol : String) : Option (Gauge K) → Except UnitError (Unit K)
  | some gauge => .ok { gauge with symbol }
  | none => .error (.exponentOutOfRange symbol)

def mul (a b : Unit K) : Except UnitError (Unit K) :=
  named (a.symbol ++ "*" ++ enclosed b.symbol) (a.mul? b.toGauge)

def div (a b : Unit K) : Except UnitError (Unit K) :=
  named (a.symbol ++ "/" ++ enclosed b.symbol) (a.div? b.toGauge)

def pow (a : Unit K) (n : Exponent) : Except UnitError (Unit K) :=
  named (enclosed a.symbol ++ "^" ++ toString n.val) (a.pow? n)

end Unit

end Measure

end SupplyNet
