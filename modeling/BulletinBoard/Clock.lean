/-
# Dates and times

Moments are counted in seconds. A moment is shown as a date and a time of day of the Gregorian
calendar, without time zones. A leap second is shown as second 60 of its minute and is not counted:
it shares the count of second 59, and minutes that pass after it pass from there.

Key definitions: `Moment`, `Clock`, `Civil`, `Moment.civil`, `Civil.moment`, `Moment.afterMinutes`,
`minutesBetween`.
-/
namespace BulletinBoard

/-- The seconds since the beginning of 1970, and whether the moment is in the leap second that
follows the last of them. -/
structure Moment where
  seconds : Int
  leap : Bool
  deriving DecidableEq, Repr

/-- A moment outside leap seconds. -/
def Moment.ofSeconds (n : Int) : Moment := ⟨n, false⟩

/-- A clock that is read again and again: the moment when so many steps have been made. -/
def Clock := Nat → Moment

/-- A clock that stands still. -/
def Moment.still (now : Moment) : Clock := fun _ => now

instance : Coe Moment Clock := ⟨Moment.still⟩

/-- A date and a time of day. A leap second is second 60. -/
structure Civil where
  year : Int
  month : Nat
  day : Nat
  hour : Nat
  minute : Nat
  second : Nat
  deriving DecidableEq, Repr

/-- The seconds of a day. -/
def secondsPerDay : Int := 86400

/-- The days from the beginning of 1970 to a date. Years are counted from March, so that the day
that some years lack is the last. -/
def daysTo (year : Int) (month day : Nat) : Int :=
  let y := if month ≤ 2 then year - 1 else year
  let era := y.fdiv 400
  let yearOfEra := y - era * 400
  let monthFromMarch : Int := (month + 9) % 12
  let dayOfYear := (153 * monthFromMarch + 2) / 5 + day - 1
  let dayOfEra := yearOfEra * 365 + yearOfEra / 4 - yearOfEra / 100 + dayOfYear
  era * 146097 + dayOfEra - 719468

/-- The date after so many days from the beginning of 1970: year, month and day. -/
def dateAfter (days : Int) : Int × Nat × Nat :=
  let z := days + 719468
  let era := z.fdiv 146097
  let dayOfEra := z - era * 146097
  let yearOfEra := (dayOfEra - dayOfEra / 1460 + dayOfEra / 36524 - dayOfEra / 146096) / 365
  let dayOfYear := dayOfEra - (365 * yearOfEra + yearOfEra / 4 - yearOfEra / 100)
  let monthFromMarch := (5 * dayOfYear + 2) / 153
  let day := dayOfYear - (153 * monthFromMarch + 2) / 5 + 1
  let month := if monthFromMarch < 10 then monthFromMarch + 3 else monthFromMarch - 9
  (yearOfEra + era * 400 + (if month ≤ 2 then 1 else 0), month.toNat, day.toNat)

/-- The moment of a date and time. -/
def Civil.moment (c : Civil) : Moment :=
  ⟨daysTo c.year c.month c.day * secondsPerDay +
    (c.hour * 3600 + c.minute * 60 + min c.second 59 : Nat), c.second = 60⟩

/-- The date and time of a moment. -/
def Moment.civil (m : Moment) : Civil :=
  let days := m.seconds.fdiv secondsPerDay
  let seconds := (m.seconds - days * secondsPerDay).toNat
  let (year, month, day) := dateAfter days
  ⟨year, month, day, seconds / 3600, seconds / 60 % 60, seconds % 60 + m.leap.toNat⟩

/-! ### Spans of time -/

/-- The moment so many minutes later. No minutes later it is still the same moment, also in a leap
second. -/
def Moment.afterMinutes (m : Moment) (minutes : Nat) : Moment :=
  if minutes = 0 then m else .ofSeconds (m.seconds + minutes * 60)

@[simp] theorem Moment.afterMinutes_zero (m : Moment) : m.afterMinutes 0 = m := rfl

/-- The whole minutes from one moment to another, none if the other is earlier. -/
def minutesBetween (m n : Moment) : Nat :=
  (n.seconds - m.seconds).toNat / 60

/-! ### Shown -/

/-- A number with at least two digits. -/
def twoDigits (n : Nat) : String :=
  if n < 10 then "0" ++ toString n else toString n

/-- The short names of the months. -/
def monthNames : List String :=
  ["Jan", "Feb", "Mar", "Apr", "May", "Jun", "Jul", "Aug", "Sep", "Oct", "Nov", "Dec"]

/-- The day, the month and the last two digits of the year. -/
def Civil.shortDate (c : Civil) : String :=
  twoDigits c.day ++ " " ++ monthNames.getD (c.month - 1) "" ++ " " ++
    twoDigits (c.year.fmod 100).toNat

/-- The hour and the minute. -/
def Civil.hourMinute (c : Civil) : String :=
  twoDigits c.hour ++ ":" ++ twoDigits c.minute

/-- The hour, the minute and the second. -/
def Civil.timeOfDay (c : Civil) : String :=
  c.hourMinute ++ ":" ++ twoDigits c.second

end BulletinBoard
