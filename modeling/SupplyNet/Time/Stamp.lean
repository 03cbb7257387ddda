import SupplyNet.Time.Calendar

/-!
Time stamps with a resolution of nanoseconds, and the years in which they can be represented.
-/
set_option autoImplicit false

namespace SupplyNet

/-- The nanoseconds since the start of 1970, leap seconds left out. A stamp in a leap second has the
count of the second before it. -/
structure Stamp where
  nanos : Int
  leap : Bool
  deriving DecidableEq

namespace Stamp

def nanosPerMilli : Int := 1000000

def nanosPerSecond : Int := 1000000000

def nanosPerDay : Int := 86400 * nanosPerSecond

/-- A second that is followed by a leap second goes on for two seconds. -/
def ofDate (date : Time.Date) (hour minute second nano : Nat) : Stamp :=
  { nanos := date.toDays * nanosPerDay +
      (hour * 3600 + minute * 60 + second : Nat) * nanosPerSecond + nano % nanosPerSecond
    leap := nanosPerSecond ≤ nano }

def startOfYear (year : Int) : Stamp := ofDate ⟨year, 1, 1⟩ 0 0 0 0

def firstYear : Int := -262143

def lastYear : Int := 262142

/-- From the start of the first year to the end of the last one. -/
def Representable (s : Stamp) : Prop :=
  (startOfYear firstYear).nanos ≤ s.nanos ∧ s.nanos < (startOfYear (lastYear + 1)).nanos

instance (s : Stamp) : Decidable s.Representable := inferInstanceAs (Decidable (_ ∧ _))

/-- A later stamp is in the leap second only if it is in the same second. -/
def add (s : Stamp) (nanos : Int) : Stamp :=
  { nanos := s.nanos + nanos
    leap := s.leap && (s.nanos + nanos).fdiv nanosPerSecond = s.nanos.fdiv nanosPerSecond }

def add? (s : Stamp) (nanos : Int) : Option Stamp :=
  if (s.add nanos).Representable then some (s.add nanos) else none

theorem add?_eq_some_iff {s t : Stamp} {nanos : Int} :
    s.add? nanos = some t ↔ (s.add nanos).Representable ∧ s.add nanos = t := by
  simp [add?]

def secondOfDay (s : Stamp) : Nat := ((s.nanos.fmod nanosPerDay) / nanosPerSecond).toNat

/-- What the leap second of a stamp adds to its distance from another one: nothing if the other one
is later in the day, be it that of another date. -/
def leapFrom (s other : Stamp) : Int :=
  if s.leap ∧ other.secondOfDay ≤ s.secondOfDay then nanosPerSecond else 0

/-- The nanoseconds from another stamp to this one. -/
def since (s other : Stamp) : Int :=
  s.nanos - other.nanos + s.leapFrom other - other.leapFrom s

/-- Three, six or nine digits, the fewest that are exact, and none for a whole second. -/
def fractionText (nanos : Nat) : String :=
  if nanos = 0 then ""
  else if nanos % 1000000 = 0 then "." ++ Time.Date.padded 3 (nanos / 1000000)
  else if nanos % 1000 = 0 then "." ++ Time.Date.padded 6 (nanos / 1000)
  else "." ++ Time.Date.padded 9 nanos

/-- A leap second is written as the second 60. -/
def text (s : Stamp) : String :=
  let date := Time.Date.ofDays (s.nanos.fdiv nanosPerDay)
  let seconds := s.secondOfDay
  let second := seconds % 60 + if s.leap then 1 else 0
  date.text ++ " " ++ Time.Date.padded 2 (seconds / 3600) ++ ":" ++
    Time.Date.padded 2 (seconds / 60 % 60) ++ ":" ++ Time.Date.padded 2 second ++
    fractionText (s.nanos.fmod nanosPerSecond).toNat

end Stamp

end SupplyNet
