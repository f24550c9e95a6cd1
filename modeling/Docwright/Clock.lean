import Docwright.Number.Shortest

/-!
# The clock

Progress lines and cached pages carry the time at which they were written. The clock moves by one
second with every reading, so that two stamps never agree and a run can be replayed.
-/

namespace Docwright

/-- A moment, in whole seconds since the beginning of the year 2024. -/
structure Moment where
  /-- Seconds since the first of January 2024, midnight. -/
  seconds : Nat
  deriving DecidableEq, Repr

namespace Moment

/-- The moment of the next reading. -/
def next (m : Moment) : Moment := ⟨m.seconds + 1⟩

/-- The hour, minute and second of the day, as `HH:MM:SS`. -/
def timeOfDay (m : Moment) : String :=
  let s := m.seconds % 86400
  let two := Number.padded 2
  two (s / 3600) ++ ":" ++ two (s / 60 % 60) ++ ":" ++ two (s % 60)

/-- The date as year, month and day. Counting from the first of March makes the day that a leap year
adds the last one of its year. -/
def date (m : Moment) : Nat × Nat × Nat :=
  -- days since the first of March of the year 2000
  let days := m.seconds / 86400 + 8706
  let era := days / 146097
  let inEra := days % 146097
  let year := (inEra - inEra / 1460 + inEra / 36524 - inEra / 146096) / 365
  let inYear := inEra - (365 * year + year / 4 - year / 100)
  let month := (5 * inYear + 2) / 153
  let day := inYear - (153 * month + 2) / 5 + 1
  let civil := if month < 10 then month + 3 else month - 9
  (2000 + 400 * era + year + (if civil ≤ 2 then 1 else 0), civil, day)

/-- Date and time, as `YYYY-MM-DDTHH:MM:SSZ`. -/
def stamp (m : Moment) : String :=
  let (year, month, day) := m.date
  let two := Number.padded 2
  Number.padded 4 year ++ "-" ++ two month ++ "-" ++ two day ++ "T" ++ m.timeOfDay ++ "Z"

/-- Date and time with milliseconds, as `YYYY-MM-DD HH:MM:SS,mmm`. -/
def logStamp (m : Moment) (milliseconds : Nat) : String :=
  let (year, month, day) := m.date
  let two := Number.padded 2
  Number.padded 4 year ++ "-" ++ two month ++ "-" ++ two day ++ " " ++ m.timeOfDay ++ "," ++
    Number.padded 3 milliseconds

end Moment

end Docwright
