/-!
# Dates, times of day and offsets

Dates of the Gregorian calendar from year 1 to year 9999, times of day to the microsecond, and
offsets from universal time of less than a day. Every value of these types is valid: the bounds are
fields of the structures, and the checked constructors say which bound a set of numbers breaks.

A time or a timestamp may carry an offset or none. Two of them can be compared only if both carry
one or neither does; with offsets it is the moment that counts.
-/

namespace Rowgate

/-- What is wrong with a date, a time or an offset. -/
inductive CalendarFault
  /-- The text is no date, time or timestamp at all. -/
  | unreadable (text : String)
  | year (year : Nat)
  | month
  | day
  | hour
  | minute
  | second
  | microsecond
  /-- The offset, in microseconds, is a day or more. -/
  | offset (micros : Int)
  deriving DecidableEq

/-! ## The calendar -/

/-- Whether the year has a 29th of February. -/
def isLeap (year : Nat) : Bool := year % 4 == 0 && (year % 100 != 0 || year % 400 == 0)

/-- The number of days of a month; 0 outside January to December. -/
def daysInMonth (year month : Nat) : Nat :=
  match month with
  | 1 | 3 | 5 | 7 | 8 | 10 | 12 => 31
  | 4 | 6 | 9 | 11 => 30
  | 2 => if isLeap year then 29 else 28
  | _ => 0

/-- The days of the years before `year`, counted from year 1. -/
def daysBeforeYear (year : Nat) : Nat :=
  let past := year - 1
  past * 365 + past / 4 - past / 100 + past / 400

/-- The days of the months before `month` in its year. -/
def daysBeforeMonth (year month : Nat) : Nat :=
  (List.range (month - 1)).foldl (fun days m => days + daysInMonth year (m + 1)) 0

def Date.Valid (year month day : Nat) : Prop :=
  (1 ≤ year ∧ year ≤ 9999) ∧ (1 ≤ month ∧ month ≤ 12) ∧ (1 ≤ day ∧ day ≤ daysInMonth year month)

instance (year month day : Nat) : Decidable (Date.Valid year month day) :=
  inferInstanceAs (Decidable (_ ∧ _ ∧ _))

structure Date where
  year : Nat
  month : Nat
  day : Nat
  valid : Date.Valid year month day
  deriving DecidableEq

namespace Date

/-- The date of three numbers; the year is checked first, then the month, then the day. -/
def ofParts (year month day : Nat) : Except CalendarFault Date :=
  if hy : 1 ≤ year ∧ year ≤ 9999 then
    if hm : 1 ≤ month ∧ month ≤ 12 then
      if hd : 1 ≤ day ∧ day ≤ daysInMonth year month then .ok ⟨year, month, day, hy, hm, hd⟩
      else .error .day
    else .error .month
  else .error (.year year)

theorem ofParts_self (d : Date) : ofParts d.year d.month d.day = .ok d := by
  obtain ⟨y, m, day, hy, hm, hd⟩ := d
  simp only [ofParts, dif_pos hy, dif_pos hm, dif_pos hd]

/-- The number of the day, counted from the first day of year 1. -/
def ordinal (d : Date) : Nat := daysBeforeYear d.year + daysBeforeMonth d.year d.month + d.day

end Date

/-! ## Weeks

The first week of a year is the one that holds its first Thursday. -/

/-- The number of the Monday of the first week of a year. -/
def firstMonday (year : Nat) : Nat :=
  let first := daysBeforeYear year + 1
  let weekday := (first + 6) % 7
  if 3 < weekday then first - weekday + 7 else first - weekday

/-- Whether the year has a 53rd week: it starts on a Thursday, or on a Wednesday and is leap. -/
def hasLongYear (year : Nat) : Bool :=
  let weekday := (daysBeforeYear year + 7) % 7
  weekday == 3 || (weekday == 2 && isLeap year)

/-- The month and the day of the month of the `k`-th day of a year, sought in the months given. -/
def monthDay (year : Nat) : (months : List Nat) → (k : Nat) → Nat × Nat
  | [], k => (12, k)
  | m :: months, k =>
    if k ≤ daysInMonth year m then (m, k) else monthDay year months (k - daysInMonth year m)

/-- Year, month and day of the day numbered `n`, which lies in one of the years given. -/
def partsOfOrdinal (n : Nat) : (years : List Nat) → Nat × Nat × Nat
  | [] => (0, 0, 0)
  | year :: years =>
    if n ≤ daysBeforeYear (year + 1) then
      (year, monthDay year ((List.range 12).map (· + 1)) (n - daysBeforeYear year))
    else partsOfOrdinal n years

/-- Year, month and day of a day of a week; `none` if the year has no such week or the week no such
day. Weeks of a year 0 lie before the calendar and are left without a month. -/
def partsOfWeek? (year week day : Nat) : Option (Nat × Nat × Nat) :=
  let weeks := if year ≠ 0 ∧ hasLongYear year then 53 else 52
  if 1 ≤ week ∧ week ≤ weeks ∧ 1 ≤ day ∧ day ≤ 7 then
    if year = 0 then some (1, 0, 0)
    else some (partsOfOrdinal (firstMonday year + (week - 1) * 7 + day - 1)
      [year - 1, year, year + 1])
  else none

/-! ## Times of day -/

def Clock.Valid (hour minute second micros : Nat) : Prop :=
  hour < 24 ∧ minute < 60 ∧ second < 60 ∧ micros < 1000000

instance (hour minute second micros : Nat) : Decidable (Clock.Valid hour minute second micros) :=
  inferInstanceAs (Decidable (_ ∧ _ ∧ _ ∧ _))

structure Clock where
  hour : Nat
  minute : Nat
  second : Nat
  micros : Nat
  valid : Clock.Valid hour minute second micros
  deriving DecidableEq

namespace Clock

/-- The time of day of four numbers, checked from the hour on. -/
def ofParts (hour minute second micros : Nat) : Except CalendarFault Clock :=
  if hh : hour < 24 then
    if hm : minute < 60 then
      if hs : second < 60 then
        if hu : micros < 1000000 then .ok ⟨hour, minute, second, micros, hh, hm, hs, hu⟩
        else .error .microsecond
      else .error .second
    else .error .minute
  else .error .hour

theorem ofParts_self (c : Clock) : ofParts c.hour c.minute c.second c.micros = .ok c := by
  obtain ⟨h, m, s, u, hh, hm, hs, hu⟩ := c
  simp only [ofParts, dif_pos hh, dif_pos hm, dif_pos hs, dif_pos hu]

def midnight : Clock := ⟨0, 0, 0, 0, by decide⟩

/-- The seconds since the start of the day. -/
def seconds (c : Clock) : Nat := c.hour * 3600 + c.minute * 60 + c.second

end Clock

/-! ## Offsets -/

def dayMicros : Int := 86400000000

/-- How far a local time is ahead of universal time, in microseconds. -/
structure Offset where
  micros : Int
  valid : -dayMicros < micros ∧ micros < dayMicros
  deriving DecidableEq

def Offset.ofMicros (micros : Int) : Except CalendarFault Offset :=
  if h : -dayMicros < micros ∧ micros < dayMicros then .ok ⟨micros, h⟩ else .error (.offset micros)

/-- A time of day with an offset or none. -/
structure Time where
  clock : Clock
  offset : Option Offset
  deriving DecidableEq

/-- A date and a time of day, with an offset or none. -/
structure DateTime where
  date : Date
  clock : Clock
  offset : Option Offset
  deriving DecidableEq

/-! ## Order -/

def Date.compare (a b : Date) : Ordering := Ord.compare a.ordinal b.ordinal

/-- The microseconds of universal time at a time of day; whole seconds of the offset count. -/
def Time.moment (t : Time) : Int :=
  let ahead := match t.offset with
    | some o => o.micros.fdiv 1000000
    | none => 0
  ((t.clock.seconds : Int) - ahead) * 1000000 + t.clock.micros

/-- Times in order of their moments, if both or neither carry an offset. -/
def Time.compare? (a b : Time) : Option Ordering :=
  if a.offset.isSome == b.offset.isSome then some (Ord.compare a.moment b.moment) else none

/-- What an offset has beyond whole seconds. -/
def Offset.fraction (o : Offset) : Int := o.micros.fmod 1000000

/-- Whether two times are the same to the microsecond: they are equal, and neither has an offset
with another fraction of a second. -/
def Time.coincides (a b : Time) : Bool :=
  a.compare? b == some .eq && a.offset.map Offset.fraction == b.offset.map Offset.fraction

/-- The microseconds from the start of year 1 to a timestamp. -/
def DateTime.moment (t : DateTime) : Int :=
  let ahead := match t.offset with
    | some o => o.micros
    | none => 0
  (t.date.ordinal : Int) * dayMicros + t.clock.seconds * 1000000 + t.clock.micros - ahead

/-- Timestamps in order of their moments, if both or neither carry an offset. -/
def DateTime.compare? (a b : DateTime) : Option Ordering :=
  if a.offset.isSome == b.offset.isSome then some (Ord.compare a.moment b.moment) else none

end Rowgate
