import DefectLog.Number.Nearest

namespace DefectLog.Journal

-- A day of the Gregorian calendar.
structure Date where
  year  : Int
  month : Int
  day   : Int
deriving DecidableEq

namespace Date

-- The date of a day, counted from the first of January 1970. Years are taken to start in March, so
-- that a leap day comes last, and are counted within eras of 400 years, which have 146097 days.
def ofDay (n : Int) : Date :=
  let shifted := n + 719468
  let era := shifted / 146097
  let dayOfEra := shifted % 146097
  let yearOfEra := (dayOfEra - dayOfEra / 1460 + dayOfEra / 36524 - dayOfEra / 146096) / 365
  let dayOfYear := dayOfEra - (365 * yearOfEra + yearOfEra / 4 - yearOfEra / 100)
  let march := (5 * dayOfYear + 2) / 153
  let month := if march < 10 then march + 3 else march - 9
  { year  := 400 * era + yearOfEra + (if month ≤ 2 then 1 else 0)
    month
    day   := dayOfYear - (153 * march + 2) / 5 + 1 }

example : ofDay 0 = ⟨1970, 1, 1⟩ ∧ ofDay 11016 = ⟨2000, 2, 29⟩ ∧ ofDay (-1) = ⟨1969, 12, 31⟩ := by decide

end Date

def twoDigits (n : Int) : String :=
  if 0 ≤ n ∧ n < 10 then s!"0{n}" else toString n

-- A clock counts in double precision, and so it misses some seconds of a distant year.
def clock (seconds : Int) : Int :=
  (Number.nearest seconds).floor

-- The date and the time of day in UTC, given in seconds from the start of 1970.
def timeText (seconds : Int) : String :=
  let seconds := clock seconds
  let date := Date.ofDay (seconds / 86400)
  let rest := seconds % 86400
  s!"{date.year}-{twoDigits date.month}-{twoDigits date.day} " ++
    s!"{twoDigits (rest / 3600)}:{twoDigits (rest / 60 % 60)}:{twoDigits (rest % 60)}"

end DefectLog.Journal
