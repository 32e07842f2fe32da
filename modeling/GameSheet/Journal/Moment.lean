/-!
# Moments

A moment is a number of seconds and microseconds since the start of 1970. `Moment.text` is its date and its time of
day as records show them, which always takes 27 characters up to the year 9999.
-/

namespace GameSheet

/-- A moment, by the time since the start of 1970. -/
structure Moment where
  seconds : Nat
  microseconds : Nat
  deriving DecidableEq, Repr

namespace Moment

/-- A number with zeros before it, up to a number of digits. -/
def padded (width n : Nat) : String :=
  let digits := toString n
  String.ofList (List.replicate (width - digits.length) '0') ++ digits

/-- The year, month and day of the day that is some days after the start of 1970. Years are counted from March on, so
that the leap day is the last one: 400 of them have 146097 days, of which the first day lies 719468 days back. -/
def date (days : Nat) : Nat × Nat × Nat :=
  let shifted := days + 719468
  let era := shifted / 146097
  let dayOfEra := shifted % 146097
  let yearOfEra := (dayOfEra - dayOfEra / 1460 + dayOfEra / 36524 - dayOfEra / 146096) / 365
  let dayOfYear := dayOfEra - (365 * yearOfEra + yearOfEra / 4 - yearOfEra / 100)
  let monthFromMarch := (5 * dayOfYear + 2) / 153
  let day := dayOfYear - (153 * monthFromMarch + 2) / 5 + 1
  let month := if monthFromMarch < 10 then monthFromMarch + 3 else monthFromMarch - 9
  let year := yearOfEra + era * 400
  (if month ≤ 2 then year + 1 else year, month, day)

/-- The date and the time of day. -/
def text (m : Moment) : String :=
  let (year, month, day) := date (m.seconds / 86400)
  let second := m.seconds % 86400
  padded 4 year ++ "-" ++ padded 2 month ++ "-" ++ padded 2 day ++ "T" ++
    padded 2 (second / 3600) ++ ":" ++ padded 2 (second / 60 % 60) ++ ":" ++ padded 2 (second % 60) ++ "." ++
    padded 6 m.microseconds ++ "Z"

end Moment

end GameSheet
