import SupplyNet.Scalar
import SupplyNet.Time.Stamp

/-!
Grids of equally spaced time stamps. A step is at least a second long, and it counts in whole
milliseconds.
-/
set_option autoImplicit false

namespace SupplyNet

inductive GridError
  | stepNotPositive (seconds : Int)
  | stepTooShort (millis : Int)
  | empty
  | outOfRange (size : Nat) (seconds : Int) (start : Stamp)
  | invalidYear (year : Int)
  | tooFewStamps
  | uneven (first second : Stamp) (seconds : Int)
  | lengthMismatch (values stamps : Nat)
  deriving DecidableEq

def GridError.message : GridError → String
  | stepNotPositive seconds => s!"Time step must be positive, got {seconds} s."
  | stepTooShort millis => s!"Time step must be at least 1 s, got {millis} ms."
  | empty => "Time grid must not be empty."
  | outOfRange size seconds start =>
    s!"Time grid of {size} steps of {seconds} s from {start.text} ends out of range."
  | invalidYear year => s!"Invalid year: {year}."
  | tooFewStamps => "At least two time stamps are needed to derive the interval length."
  | uneven first second seconds =>
    s!"Time stamps are not equidistant: {first.text} -> {second.text} " ++
      s!"differs from the first interval of {seconds} s."
  | lengthMismatch values stamps =>
    s!"Time series has {values} values, but its time grid has {stamps} time stamps."

namespace Time

/-- A length of time in whole units, without the part of one that remains. -/
def wholeSeconds (nanos : Int) : Int := nanos.tdiv Stamp.nanosPerSecond

def wholeMillis (nanos : Int) : Int := nanos.tdiv Stamp.nanosPerMilli

/-- The stamp so many steps after the start. -/
def stampAt (start : Stamp) (step : Int) (i : Nat) : Stamp :=
  start.add (wholeMillis step * i * Stamp.nanosPerMilli)

/-- A number that a signed word of 64 bits can hold. -/
def InWord (n : Int) : Prop := Int64.minValue.toInt ≤ n ∧ n ≤ Int64.maxValue.toInt

instance (n : Int) : Decidable (InWord n) := inferInstanceAs (Decidable (_ ∧ _))

def inWord? (n : Int) : Option Int := if InWord n then some n else none

theorem inWord?_eq_some_iff {n k : Int} : inWord? n = some k ↔ InWord n ∧ n = k := by
  simp [inWord?]

/-- The stamp so many steps after the start, with the steps and the milliseconds counted in words. -/
def stampAt? (start : Stamp) (step : Int) (i : Nat) : Option Stamp := do
  let count ← inWord? i
  let millis ← inWord? (wholeMillis step * count)
  start.add? (millis * Stamp.nanosPerMilli)

theorem stampAt?_eq_some_iff {start s : Stamp} {step : Int} {i : Nat} :
    stampAt? start step i = some s ↔ InWord i ∧ InWord (wholeMillis step * i) ∧
      (stampAt start step i).Representable ∧ stampAt start step i = s := by
  simp [stampAt?, stampAt, Option.bind_eq_some_iff, inWord?_eq_some_iff, Stamp.add?_eq_some_iff,
    and_assoc]

theorem representable_of_isSome {start : Stamp} {step : Int} {i : Nat}
    (h : (stampAt? start step i).isSome = true) : (stampAt start step i).Representable := by
  obtain ⟨s, hs⟩ := Option.isSome_iff_exists.1 h
  exact (stampAt?_eq_some_iff.1 hs).2.2.1

end Time

/-- `step` is in nanoseconds, and the last stamp can be represented. -/
structure Grid where
  start : Stamp
  step : Int
  size : Nat
  step_ge : Stamp.nanosPerSecond ≤ step
  size_pos : 0 < size
  ends : (Time.stampAt start step (size - 1)).Representable
  deriving DecidableEq

namespace Grid

def ofStep (start : Stamp) (step : Int) (size : Nat) : Except GridError Grid :=
  if step ≤ 0 then .error (.stepNotPositive (Time.wholeSeconds step))
  else if h₁ : step < Stamp.nanosPerSecond then .error (.stepTooShort (Time.wholeMillis step))
  else if h₂ : size = 0 then .error .empty
  else if h₃ : (Time.stampAt? start step (size - 1)).isSome then
    .ok ⟨start, step, size, by omega, by omega, Time.representable_of_isSome h₃⟩
  else .error (.outOfRange size (Time.wholeSeconds step) start)

def hour : Int := 3600 * Stamp.nanosPerSecond

/-- Hours from the start of a year. -/
def hourly (year : Int) (size : Nat) : Except GridError Grid :=
  if Stamp.firstYear ≤ year ∧ year ≤ Stamp.lastYear then ofStep (.startOfYear year) hour size
  else .error (.invalidYear year)

/-- The hours of a year. -/
def standard : Grid := ⟨.startOfYear 2020, hour, 8760, by decide, by decide, by decide⟩

/-- The first two neighbours that are not so far apart. -/
def firstUneven? (step : Int) : List Stamp → Option (Stamp × Stamp)
  | a :: b :: r =>
    if b.since a = step then firstUneven? step (b :: r) else some (a, b)
  | _ => none

/-- The grid of the given stamps, which must be equally spaced. -/
def ofStamps (stamps : List Stamp) : Except GridError Grid :=
  match stamps with
  | first :: second :: _ =>
    let step := second.since first
    match firstUneven? step stamps with
    | some (a, b) => .error (.uneven a b (Time.wholeSeconds step))
    | none => ofStep first step stamps.length
  | _ => .error .tooFewStamps

def stamp (g : Grid) (i : Nat) : Stamp := Time.stampAt g.start g.step i

def stamp? (g : Grid) (i : Nat) : Option Stamp := Time.stampAt? g.start g.step i

/-- What is found for the items of a list, up to the first one for which nothing is found. -/
def mapWhile {α β : Type} (f : α → Option β) : List α → List β
  | [] => []
  | a :: r =>
    match f a with
    | some b => b :: mapWhile f r
    | none => []

def stamps (g : Grid) : List Stamp := mapWhile g.stamp? (List.range g.size)

def stepMillis (g : Grid) : Int := Time.wholeMillis g.step

/-- The length of a step in hours. -/
def hours {K : Type} [Scalar K] (g : Grid) : K := Scalar.ofInt g.stepMillis / 3.6e6

end Grid

end SupplyNet
