namespace ChatRelay

-- A moment in milliseconds since the epoch.
structure Timestamp where
  millis : Int
deriving DecidableEq, Inhabited

structure CivilDate where
  year : Int
  month : Nat
  day : Nat
deriving DecidableEq

namespace CivilDate

-- The date of a day number. Years are counted from March, so that a leap day ends its year, and
-- in eras of 400 years, which all have the same number of days.
def ofDayNumber (n : Int) : CivilDate :=
  let shifted := n + 719468
  let era := shifted.fdiv 146097
  let dayOfEra := (shifted - era * 146097).toNat
  let yearOfEra := (dayOfEra - dayOfEra / 1460 + dayOfEra / 36524 - dayOfEra / 146096) / 365
  let dayOfYear := dayOfEra - (365 * yearOfEra + yearOfEra / 4 - yearOfEra / 100)
  let shiftedMonth := (5 * dayOfYear + 2) / 153
  let day := dayOfYear - (153 * shiftedMonth + 2) / 5 + 1
  let month := if shiftedMonth < 10 then shiftedMonth + 3 else shiftedMonth - 9
  { year := yearOfEra + era * 400 + (if month ≤ 2 then 1 else 0), month, day }

def toDayNumber (d : CivilDate) : Int :=
  let year := if d.month ≤ 2 then d.year - 1 else d.year
  let era := year.fdiv 400
  let yearOfEra := (year - era * 400).toNat
  let shiftedMonth := if 2 < d.month then d.month - 3 else d.month + 9
  let dayOfYear := (153 * shiftedMonth + 2) / 5 + d.day - 1
  let dayOfEra := yearOfEra * 365 + yearOfEra / 4 - yearOfEra / 100 + dayOfYear
  era * 146097 + dayOfEra - 719468

def padded (width n : Nat) : String :=
  let digits := toString n
  String.ofList (List.replicate (width - digits.length) '0') ++ digits

-- Years from 0 to 9999 have four digits; others have a sign as well.
def writeYear (year : Int) : String :=
  if 0 ≤ year ∧ year ≤ 9999 then padded 4 year.natAbs
  else (if year < 0 then "-" else "+") ++ padded 4 year.natAbs

def write (d : CivilDate) : String :=
  writeYear d.year ++ "-" ++ padded 2 d.month ++ "-" ++ padded 2 d.day

end CivilDate

namespace Timestamp

def millisPerDay : Int := 86400000

-- The first millisecond of the first representable year.
def least : Int := CivilDate.toDayNumber ⟨-262143, 1, 1⟩ * millisPerDay

-- The last millisecond of the last representable year.
def greatest : Int := (CivilDate.toDayNumber ⟨262142, 12, 31⟩ + 1) * millisPerDay - 1

-- The moment of a count of milliseconds; a count out of range means the epoch.
def ofMillis (millis : Int) : Timestamp :=
  if least ≤ millis ∧ millis ≤ greatest then ⟨millis⟩ else ⟨0⟩

-- Date and time of day in whole seconds, in UTC.
def toRfc3339 (t : Timestamp) : String :=
  let day := t.millis.fdiv millisPerDay
  let second := ((t.millis - day * millisPerDay) / 1000).toNat
  (CivilDate.ofDayNumber day).write ++ "T" ++ CivilDate.padded 2 (second / 3600) ++ ":"
    ++ CivilDate.padded 2 (second / 60 % 60) ++ ":" ++ CivilDate.padded 2 (second % 60) ++ "Z"

end Timestamp

end ChatRelay
