import Rowgate.Calendar.Date
import Rowgate.Number.Integer
import Rowgate.Text.Quoted

/-!
# Dates and times as text

The international notation of dates, times, offsets and timestamps; the longer notation that names
the kind of the value and its parts, used inside messages; and the wording of what can be wrong.
-/

namespace Rowgate

/-- The last `width` digits of a number. -/
def padded : (width : Nat) → Nat → List Char
  | 0, _ => []
  | width + 1, n => padded width (n / 10) ++ [Nat.digitChar (n % 10)]

theorem length_padded (width n : Nat) : (padded width n).length = width := by
  induction width generalizing n with
  | zero => rfl
  | succ width ih => simp [padded, ih]

/-! ## International notation -/

/-- `2024-02-29` -/
def Date.iso (d : Date) : List Char :=
  padded 4 d.year ++ '-' :: (padded 2 d.month ++ '-' :: padded 2 d.day)

/-- `08:15:00`, with six places for the microseconds if there are any. -/
def Clock.iso (c : Clock) : List Char :=
  padded 2 c.hour ++ ':' :: (padded 2 c.minute ++ ':' :: (padded 2 c.second ++
    if c.micros = 0 then [] else '.' :: padded 6 c.micros))

/-- `+02:00`, with seconds and microseconds only if there are any. -/
def Offset.iso (o : Offset) : List Char :=
  let micros := o.micros.natAbs
  let seconds := micros / 1000000
  (if o.micros < 0 then '-' else '+') ::
    (padded 2 (seconds / 3600) ++ ':' :: (padded 2 (seconds / 60 % 60) ++
      (if seconds % 60 = 0 ∧ micros % 1000000 = 0 then [] else ':' :: padded 2 (seconds % 60)) ++
      if micros % 1000000 = 0 then [] else '.' :: padded 6 (micros % 1000000)))

/-- The notation of an offset that may be missing. -/
def Offset.isoIfAny (o : Option Offset) : List Char := (o.map Offset.iso).getD []

/-- `08:15:00+02:00` -/
def Time.iso (t : Time) : List Char := t.clock.iso ++ Offset.isoIfAny t.offset

/-- `2024-02-29T08:15:00+02:00`, with `sep` between date and time. -/
def DateTime.iso (sep : Char) (t : DateTime) : List Char :=
  t.date.iso ++ sep :: (t.clock.iso ++ Offset.isoIfAny t.offset)

/-! ## Notation by parts -/

/-- A duration by days, seconds and microseconds, the parts that are zero left out; days may be
negative, the other parts are not. -/
def durationParts (micros : Int) : List Char :=
  let days := micros.fdiv dayMicros
  let rest := micros.fmod dayMicros
  let part (name : String) (n : Int) : List (List Char) :=
    if n = 0 then [] else [name.toList ++ '=' :: signedDigits n]
  let parts := part "days" days ++ part "seconds" (rest / 1000000) ++
    part "microseconds" (rest % 1000000)
  "datetime.timedelta(".toList ++
    (if parts.isEmpty then ['0'] else [',', ' '].intercalate parts) ++ [')']

/-- An offset as a time zone. -/
def Offset.parts (o : Offset) : List Char :=
  if o.micros = 0 then "datetime.timezone.utc".toList
  else "datetime.timezone(".toList ++ durationParts o.micros ++ [')']

/-- The offset as the last part of a time, if there is one. -/
def Offset.lastPart (o : Option Offset) : List Char :=
  match o with
  | some o => ", tzinfo=".toList ++ o.parts
  | none => []

def commaSeparated (ns : List Nat) : List Char := [',', ' '].intercalate (ns.map digitsOf)

/-- The numbers of a time of day; seconds and microseconds only if something is left to say. -/
def Clock.numbers (c : Clock) : List Nat :=
  if c.micros ≠ 0 then [c.hour, c.minute, c.second, c.micros]
  else if c.second ≠ 0 then [c.hour, c.minute, c.second]
  else [c.hour, c.minute]

/-- `datetime.date(2024, 2, 29)` -/
def Date.parts (d : Date) : List Char :=
  "datetime.date(".toList ++ commaSeparated [d.year, d.month, d.day] ++ [')']

/-- `datetime.time(8, 15)` -/
def Time.parts (t : Time) : List Char :=
  "datetime.time(".toList ++ commaSeparated t.clock.numbers ++ Offset.lastPart t.offset ++ [')']

/-- `datetime.datetime(2024, 2, 29, 8, 15)` -/
def DateTime.parts (t : DateTime) : List Char :=
  "datetime.datetime(".toList ++
    commaSeparated (t.date.year :: t.date.month :: t.date.day :: t.clock.numbers) ++
    Offset.lastPart t.offset ++ [')']

def CalendarFault.message : CalendarFault → String
  | .unreadable text => "Invalid isoformat string: " ++ Text.quoted text
  | .year y => "year " ++ toString y ++ " is out of range"
  | .month => "month must be in 1..12"
  | .day => "day is out of range for month"
  | .hour => "hour must be in 0..23"
  | .minute => "minute must be in 0..59"
  | .second => "second must be in 0..59"
  | .microsecond => "microsecond must be in 0..999999"
  | .offset micros =>
    "offset must be a timedelta strictly between -timedelta(hours=24) and timedelta(hours=24), " ++
      "not " ++ String.ofList (durationParts micros) ++ "."

end Rowgate
