import FeedbackBoard.Binary64.Decimal

/-!
# Times and sizes

How times and sizes are shown in a report: a recent time by its distance from
now, every other time by its date, and a size in the largest unit that it fills.

Main definitions:

- `Date.ofDays`: the date of a number of days since the beginning of 1970.
- `timeText`: a time by its date.
- `ageText`: a time by its distance from now.
- `sizeText`: a number of bytes.
-/

namespace FeedbackBoard

/-- A natural number as a text. -/
def naturalText (n : Nat) : String :=
  String.ofList (decimalDigits n)

/-- An integer as a text. -/
def intText (n : Int) : String :=
  (if n < 0 then "-" else "") ++ naturalText n.natAbs

/-- A natural number with zeros before it, up to a width. -/
def zeroPadded (width n : Nat) : String :=
  let digits := decimalDigits n
  String.ofList (List.replicate (width - digits.length) '0' ++ digits)

/-! ## Dates -/

/-- A date of the Gregorian calendar, extended to all years. -/
structure Date where
  year : Int
  month : Nat
  day : Nat
deriving DecidableEq, Repr

/--
The date of a number of days since the beginning of 1970.  Days are counted from
the first of March of the year zero, so that a leap day is the last day of its
year, and 400 years are always 146097 days.
-/
def Date.ofDays (days : Int) : Date :=
  let shifted := days + 719468
  let era := shifted / 146097
  let dayOfEra := (shifted % 146097).toNat
  let yearOfEra := (dayOfEra - dayOfEra / 1460 + dayOfEra / 36524 - dayOfEra / 146096) / 365
  let dayOfYear := dayOfEra - (365 * yearOfEra + yearOfEra / 4 - yearOfEra / 100)
  let shiftedMonth := (5 * dayOfYear + 2) / 153
  let day := dayOfYear - (153 * shiftedMonth + 2) / 5 + 1
  let month := if shiftedMonth < 10 then shiftedMonth + 3 else shiftedMonth - 9
  let year := era * 400 + yearOfEra + (if month ≤ 2 then 1 else 0)
  { year, month, day }

/-- The year of a date: four digits, and a sign outside the years that have no more. -/
def yearText (year : Int) : String :=
  if 0 ≤ year ∧ year ≤ 9999 then zeroPadded 4 year.natAbs
  else (if year < 0 then "-" else "+") ++ zeroPadded 4 year.natAbs

/-- How many seconds a day has. -/
def daySeconds : Int := 86400

/-- The first and the last second whose dates are known. -/
def knownTimes : Int × Int := (-8334601228800, 8210266876799)

/-- A time by its date and its minute; one without a known date by its number. -/
def timeText (seconds : Int) : String :=
  if knownTimes.1 ≤ seconds ∧ seconds ≤ knownTimes.2 then
    let date := Date.ofDays (seconds / daySeconds)
    let rest := (seconds % daySeconds).toNat
    yearText date.year ++ "-" ++ zeroPadded 2 date.month ++ "-" ++ zeroPadded 2 date.day ++ " " ++
      zeroPadded 2 (rest / 3600) ++ ":" ++ zeroPadded 2 (rest / 60 % 60)
  else intText seconds

/-! ## Distances -/

/-- A number of things that are past. -/
def pastText (count : Int) (thing : String) : String :=
  intText count ++ " " ++ thing ++ (if count = 1 then "" else "s") ++ " ago"

/-- How a time is shown whose distance from now is known. -/
def distanceText (distance seconds : Int) : String :=
  if distance < 0 then timeText seconds
  else if distance < 60 then "just now"
  else if distance < 3600 then pastText (distance / 60) "min"
  else if distance < daySeconds then pastText (distance / 3600) "hour"
  else if distance < daySeconds * 30 then pastText (distance / daySeconds) "day"
  else timeText seconds

/-- A distance of times does not fit in 64 bits. -/
structure TimeOverflow where
deriving DecidableEq, Repr

/-- A time by its distance from now; the distance has to fit in 64 bits. -/
def ageText (now seconds : Int) : Except TimeOverflow String :=
  let distance := now - seconds
  if -0x8000000000000000 ≤ distance ∧ distance < 0x8000000000000000 then .ok (distanceText distance seconds)
  else .error ⟨⟩

/-! ## Sizes -/

/-- A number of bytes in a unit, with some places. -/
def inUnit (places unit bytes : Nat) : String :=
  String.ofList (fixedPlaces places (Binary64.units (Binary64.naturalRank bytes))
    (Binary64.one * unit))

/-- The units of sizes: each is 1024 of the one before. -/
def kibibyte : Nat := 1024

@[inherit_doc kibibyte]
def mebibyte : Nat := 1024 * kibibyte

@[inherit_doc kibibyte]
def gibibyte : Nat := 1024 * mebibyte

/-- A number of bytes in the largest unit that it fills. -/
def sizeText (bytes : Nat) : String :=
  if bytes < kibibyte then naturalText bytes ++ " B"
  else if bytes < mebibyte then inUnit 1 kibibyte bytes ++ " KB"
  else if bytes < gibibyte then inUnit 1 mebibyte bytes ++ " MB"
  else inUnit 2 gibibyte bytes ++ " GB"

end FeedbackBoard
