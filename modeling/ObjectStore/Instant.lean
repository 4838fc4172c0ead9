/-!
# Instants

A moment in universal time, as its calendar date and its time of day with nanoseconds. A leap second
is written as second 60 and held as second 59 with a nanosecond count of 10⁹ and more, so that every
instant has one form. The calendar is the proleptic Gregorian one.

Only two operations are needed: to build an instant from its fields, which fails for a date or time
that does not exist, and to take away the minutes by which a local time is ahead of universal time.
-/

namespace ObjectStore

namespace Calendar

/-- Whether a year has a 29 February. -/
def isLeap (year : Int) : Bool := year % 4 == 0 && (year % 100 != 0 || year % 400 == 0)

/-- The number of days of a month. -/
def daysIn (year : Int) : (month : Nat) → Nat
  | 2 => if isLeap year then 29 else 28
  | 4 | 6 | 9 | 11 => 30
  | _ => 31

/-- Whether there are instants in a year: those from -262143 to 262142 have some. -/
def hasYear : (year : Int) → Bool
  | .ofNat n => decide (n ≤ 262142)
  | .negSucc n => decide (n ≤ 262142)

end Calendar

/-- The number of nanoseconds of a second. -/
def nanosPerSecond : Nat := 1000000000

/-- A date and time of day in universal time. -/
structure Instant where
  year : Int
  month : Nat
  day : Nat
  hour : Nat
  minute : Nat
  second : Nat
  nano : Nat
  hasYear : Calendar.hasYear year = true
  month_mem : 1 ≤ month ∧ month ≤ 12
  day_mem : 1 ≤ day ∧ day ≤ Calendar.daysIn year month
  time_lt : hour < 24 ∧ minute < 60 ∧ second < 60
  nano_lt : nano < nanosPerSecond ∨ (second = 59 ∧ nano < 2 * nanosPerSecond)
  deriving DecidableEq

namespace Instant

/-- The instant with these fields, if the calendar and the clock have it. -/
def ofFields? (year : Int) (month day hour minute second nano : Nat) : Option Instant :=
  if h : Calendar.hasYear year = true ∧ (1 ≤ month ∧ month ≤ 12) ∧
      (1 ≤ day ∧ day ≤ Calendar.daysIn year month) ∧ (hour < 24 ∧ minute < 60 ∧ second < 60) ∧
      (nano < nanosPerSecond ∨ (second = 59 ∧ nano < 2 * nanosPerSecond)) then
    some ⟨year, month, day, hour, minute, second, nano, h.1, h.2.1, h.2.2.1, h.2.2.2.1, h.2.2.2.2⟩
  else none

/-- An instant is found again from its fields. -/
@[simp] theorem ofFields?_self (t : Instant) :
    ofFields? t.year t.month t.day t.hour t.minute t.second t.nano = some t := by
  unfold ofFields?
  rw [dif_pos ⟨t.hasYear, t.month_mem, t.day_mem, t.time_lt, t.nano_lt⟩]

/-- Midnight at the start of 1970. -/
def epoch : Instant where
  year := 1970
  month := 1
  day := 1
  hour := 0
  minute := 0
  second := 0
  nano := 0
  hasYear := by decide
  month_mem := by decide
  day_mem := by decide
  time_lt := by decide
  nano_lt := by decide

instance : Inhabited Instant := ⟨epoch⟩

/-- The date before a date. -/
def dayBefore (year : Int) (month day : Nat) : Int × Nat × Nat :=
  if 1 < day then (year, month, day - 1)
  else if 1 < month then (year, month - 1, Calendar.daysIn year (month - 1))
  else (year - 1, 12, 31)

/-- The date after a date. -/
def dayAfter (year : Int) (month day : Nat) : Int × Nat × Nat :=
  if day < Calendar.daysIn year month then (year, month, day + 1)
  else if month < 12 then (year, month + 1, 1)
  else (year + 1, 1, 1)

/-- The instant that is shown as `t` where clocks are ahead by `ahead` minutes, less than a day
either way. Seconds stay as they are. Nothing, if that leaves the years that have instants. -/
def behind? (t : Instant) (ahead : Int) : Option Instant :=
  let minutes := t.hour * 60 + t.minute - ahead
  let date :=
    if minutes < 0 then dayBefore t.year t.month t.day
    else if minutes < 1440 then (t.year, t.month, t.day)
    else dayAfter t.year t.month t.day
  let m := (minutes % 1440).toNat
  ofFields? date.1 date.2.1 date.2.2 (m / 60) (m % 60) t.second t.nano

end Instant

end ObjectStore
