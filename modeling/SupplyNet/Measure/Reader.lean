import SupplyNet.Measure.Unit
import SupplyNet.Text.Blank
import SupplyNet.Text.Letter

/-!
Reading units. With blanks allowed around every token, a unit is

    expression := term (('*' | '/') term)*
    term := atom ('^' '-'? digit+)?
    atom := symbol | '1' | '(' expression ')'

and it is evaluated from left to right as it is read, so that the first fault is found, be it in
the text or in an exponent.
-/
set_option autoImplicit false

namespace SupplyNet.Measure

open Text

/-- What remains of a text after a part of it was read. -/
abbrev Rest (s : List Char) := { r : List Char // r.length < s.length }

namespace Reader

variable {K : Type} [Scalar K]

def inRange {α : Type} : Option α → Except Fault α
  | some a => .ok a
  | none => .error .exponentOutOfRange

def digitsValue (digits : List Char) : Nat :=
  digits.foldl (fun n c => 10 * n + (c.toNat - '0'.toNat)) 0

/-- The integer at the start of a text. A sign or digits that make up no exponent are refused. -/
def exponent (s : List Char) : Except Fault (Exponent × { r : List Char // r.length ≤ s.length }) :=
  let negative := s.head? = some '-'
  let t := if negative then s.tail else s
  let digits := t.takeWhile Char.isDigit
  let value : Int := digitsValue digits
  match if digits = [] then none else Exponent.ofInt? (if negative then -value else value) with
  | none => .error .exponentExpected
  | some n => .ok (n, ⟨t.dropWhile Char.isDigit, by
      have h₁ : (t.dropWhile Char.isDigit).length ≤ t.length :=
        (List.dropWhile_sublist _).length_le
      have h₂ : t.length ≤ s.length := by
        simp only [t]
        split <;> simp
      omega⟩)

/-- The gauge of a symbol. -/
def known (symbol : String) : Except Fault (Gauge K) :=
  match Gauge.known? symbol with
  | some gauge => .ok gauge
  | none => .error (.unknown symbol)

mutual

def expression (s : List Char) : Except Fault (Gauge K × Rest s) := do
  let (unit, ⟨r, h⟩) ← term s
  let (unit, ⟨r', h'⟩) ← factors unit r
  return (unit, ⟨r', by omega⟩)
termination_by 3 * s.length + 2

/-- The further factors and divisors of a unit. -/
def factors (unit : Gauge K) (s : List Char) :
    Except Fault (Gauge K × { r : List Char // r.length ≤ s.length }) :=
  match h : skipBlanks s with
  | '*' :: s' => do
    have hs := length_skipBlanks_le s
    let (rhs, ⟨r, _⟩) ← term s'
    let (product, ⟨r', _⟩) ← factors (← inRange (unit.mul? rhs)) r
    return (product, ⟨r', by grind⟩)
  | '/' :: s' => do
    have hs := length_skipBlanks_le s
    let (rhs, ⟨r, _⟩) ← term s'
    let (quotient, ⟨r', _⟩) ← factors (← inRange (unit.div? rhs)) r
    return (quotient, ⟨r', by grind⟩)
  | _ => .ok (unit, ⟨s, Nat.le_refl _⟩)
termination_by 3 * s.length
decreasing_by all_goals grind

def term (s : List Char) : Except Fault (Gauge K × Rest s) := do
  let (unit, ⟨r, _⟩) ← atom s
  match h : skipBlanks r with
  | '^' :: r' =>
    have hr := length_skipBlanks_le r
    have hr' := length_skipBlanks_le r'
    let (n, ⟨r'', _⟩) ← exponent (skipBlanks r')
    return (← inRange (unit.pow? n), ⟨r'', by grind⟩)
  | _ => return (unit, ⟨r, by omega⟩)
termination_by 3 * s.length + 1

def atom (s : List Char) : Except Fault (Gauge K × Rest s) :=
  match h : skipBlanks s with
  | [] => .error .endOfText
  | '(' :: s' => do
    have hs := length_skipBlanks_le s
    let (unit, ⟨r, _⟩) ← expression s'
    match h' : skipBlanks r with
    | ')' :: r' =>
      have hr := length_skipBlanks_le r
      return (unit, ⟨r', by grind⟩)
    | _ => .error .bracketMissing
  | '1' :: s' => .ok (.one, ⟨s', by have := length_skipBlanks_le s; grind⟩)
  | c :: s' =>
    if isLetter c then do
      let unit ← known (String.ofList (c :: s'.takeWhile isLetter))
      return (unit, ⟨s'.dropWhile isLetter, by
        have hs := length_skipBlanks_le s
        have := (List.dropWhile_sublist (l := s') isLetter).length_le
        grind⟩)
    else .error (.unexpected c)
termination_by 3 * s.length
decreasing_by grind

end

/-- The gauge that a whole text denotes. -/
def read (s : List Char) : Except Fault (Gauge K) := do
  let (unit, ⟨r, _⟩) ← expression s
  match skipBlanks r with
  | [] => return unit
  | c :: _ => .error (.unexpected c)

end Reader

/-- The symbol of a unit that was read is its text without the blanks around it. -/
def Unit.read {K : Type} [Scalar K] (text : String) : Except UnitError (Unit K) :=
  match Reader.read text.toList with
  | .ok gauge => .ok { gauge with symbol := String.ofList (trim text.toList) }
  | .error fault => .error (.malformed text fault)

end SupplyNet.Measure
