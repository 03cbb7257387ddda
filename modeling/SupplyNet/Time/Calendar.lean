/-!
The proleptic Gregorian calendar: dates as counts of days since the start of 1970. Years are counted
from March here, so that a leap day is the last day of its year.
-/
set_option autoImplicit false

namespace SupplyNet.Time

structure Date where
  year : Int
  month : Nat
  day : Nat
  deriving DecidableEq

namespace Date

/-- The days before a month in a year that starts in March. -/
def daysBefore (monthFromMarch : Nat) : Nat := (153 * monthFromMarch + 2) / 5

/-- The days from the start of March of the year 0 to the start of 1970. -/
def epoch : Int := 719468

def toDays (date : Date) : Int :=
  let monthFromMarch := (date.month + 9) % 12
  let year := if date.month ≤ 2 then date.year - 1 else date.year
  let leapDays := year.fdiv 4 - year.fdiv 100 + year.fdiv 400
  365 * year + leapDays + daysBefore monthFromMarch + date.day - 1 - epoch

/-- A date lies in a cycle of 400 years, and therein in a year and a month. -/
def ofDays (days : Int) : Date :=
  let shifted := days + epoch
  let cycle := shifted.fdiv 146097
  let inCycle := (shifted.fmod 146097).toNat
  let yearInCycle := (inCycle - inCycle / 1460 + inCycle / 36524 - inCycle / 146096) / 365
  let inYear := inCycle - (365 * yearInCycle + yearInCycle / 4 - yearInCycle / 100)
  let monthFromMarch := (5 * inYear + 2) / 153
  let month := (monthFromMarch + 2) % 12 + 1
  let year := 400 * cycle + yearInCycle
  ⟨if month ≤ 2 then year + 1 else year, month, inYear - daysBefore monthFromMarch + 1⟩

/-- Digits with zeros in front up to a width. -/
def padded (width n : Nat) : String := "".pushn '0' (width - n.repr.length) ++ n.repr

/-- Years of one to four digits have four; others have a sign as well. -/
def yearText (year : Int) : String :=
  if 0 ≤ year ∧ year ≤ 9999 then padded 4 year.toNat
  else (if year < 0 then "-" else "+") ++ padded 4 year.natAbs

def text (date : Date) : String :=
  yearText date.year ++ "-" ++ padded 2 date.month ++ "-" ++ padded 2 date.day

end Date

end SupplyNet.Time
