/-
  Instants, durations and their texts.

  An instant is a count of microseconds since the epoch, in UTC; a duration in seconds is an exact
  rational.  `isoformat` and `isoformatZ` render an instant the way `datetime.isoformat()` and
  pydantic's JSON mode do; the calendar part is the usual days-to-civil computation on eras of
  400 years.
-/
import Mathlib.Data.Rat.Floor

namespace FavlGateway.Library

/-- Python's `round`: to the nearest integer, ties to even. -/
def roundHalfEven (q : ℚ) : Int :=
  let f := q.floor
  let d := q - f
  if d < 1 / 2 then f
  else if 1 / 2 < d then f + 1
  else if f % 2 = 0 then f else f + 1

/-- `t + timedelta(seconds=q)`, in microseconds. -/
def addSeconds (t : Int) (q : ℚ) : Int := t + roundHalfEven (q * 1000000)

/-- A number in decimal, padded with zeros to `w` digits. -/
def padded (w n : Nat) : String :=
  let digits := toString n
  String.ofList (List.replicate (w - digits.length) '0') ++ digits

/-- `format(q, ".1f")` for a non-negative `q`. -/
def formatTenths (q : ℚ) : String :=
  let tenths := (roundHalfEven (q * 10)).toNat
  toString (tenths / 10) ++ "." ++ toString (tenths % 10)

/-- Year, month and day of a day number counted from the epoch. -/
def civilFromDays (days : Int) : Int × Nat × Nat :=
  let z := days + 719468
  let era := z / 146097
  let doe := (z % 146097).toNat
  let yoe := (doe - doe / 1460 + doe / 36524 - doe / 146096) / 365
  let doy := doe - (365 * yoe + yoe / 4 - yoe / 100)
  let mp := (5 * doy + 2) / 153
  let month := if mp < 10 then mp + 3 else mp - 9
  (era * 400 + yoe + (if month ≤ 2 then 1 else 0), month, doy - (153 * mp + 2) / 5 + 1)

/-- Date and time without the offset; the fraction is left out when it is zero. -/
def isoBody (t : Int) : String :=
  let (year, month, day) := civilFromDays (t / 86400000000)
  let micros := (t % 86400000000).toNat
  let seconds := micros / 1000000
  let fraction := micros % 1000000
  padded 4 year.toNat ++ "-" ++ padded 2 month ++ "-" ++ padded 2 day ++ "T" ++
    padded 2 (seconds / 3600) ++ ":" ++ padded 2 (seconds / 60 % 60) ++ ":" ++
    padded 2 (seconds % 60) ++ (if fraction = 0 then "" else "." ++ padded 6 fraction)

/-- `datetime.isoformat()` of a UTC instant. -/
def isoformat (t : Int) : String := isoBody t ++ "+00:00"

/-- A UTC instant as pydantic's JSON mode writes it. -/
def isoformatZ (t : Int) : String := isoBody t ++ "Z"

example : isoformat 1785888000000000 = "2026-08-05T00:00:00+00:00" := by decide +kernel

end FavlGateway.Library
