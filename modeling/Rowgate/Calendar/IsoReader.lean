import Rowgate.Calendar.Date
import Rowgate.Text.Surrogate

/-!
# Reading the international notation

Dates are read in the basic and the extended form, by month and day or by week and weekday. A
timestamp is a date, any single character, and a time; where a week date could end in two places,
the characters after it decide. Times may stop after the hour or the minute; a fraction of a second
follows a point or a comma and is cut to six digits.

The time before an offset is read leniently: a separator or further characters before the sign of
the offset are passed over. At the end of the text nothing may be left, but a NUL ends a time, an
offset and the mark of universal time as the end of the text does.

Half of a surrogate pair can only separate the date from the time.
-/

namespace Rowgate.Iso

/-- A number of exactly `width` ASCII digits, and what follows it. -/
def digits? : (width : Nat) → List Char → Option (Nat × List Char)
  | width, cs =>
    let ds := cs.take width
    if ds.length = width ∧ ds.all Char.isDigit then some (Nat.ofDigitChars 10 ds 0, cs.drop width)
    else none

/-- A text without halves of surrogate pairs. -/
def whole? (cs : List Char) : Option (List Char) :=
  if cs.any Text.isHalf then none else some cs

/-! ## Dates -/

/-- Year, month and day of a date that takes up the first `width` characters. -/
def date? (width : Nat) (cs : List Char) : Option (Nat × Nat × Nat) := do
  let (year, rest) ← digits? 4 cs
  let extended := rest.head? == some '-'
  let rest := if extended then rest.drop 1 else rest
  match rest with
  | 'W' :: rest =>
    let (week, rest) ← digits? 2 rest
    if cs.length - rest.length < width then
      let rest ← if extended then (if rest.head? == some '-' then some (rest.drop 1) else none)
        else some rest
      let (day, _) ← digits? 1 rest
      partsOfWeek? year week day
    else partsOfWeek? year week 1
  | rest =>
    let (month, rest) ← digits? 2 rest
    let rest ← if extended then (if rest.head? == some '-' then some (rest.drop 1) else none)
      else some rest
    let (day, _) ← digits? 2 rest
    some (year, month, day)

/-- The octets of a text in the variable-width encoding of eight bits. -/
def octetCount (cs : List Char) : Nat := cs.foldl (fun n c => n + c.utf8Size) 0

/-- Reads a date; only texts of seven, eight or ten octets can be dates. -/
def readDate (s : String) : Except CalendarFault Date :=
  let cs := s.toList
  let width := octetCount cs
  match if width = 7 ∨ width = 8 ∨ width = 10 then (whole? cs).bind (date? width) else none with
  | some (year, month, day) => Date.ofParts year month day
  | none => .error (.unreadable s)

/-- Where the date of a timestamp ends. -/
def dateWidth? (cs : List Char) : Option Nat :=
  if cs.length < 7 then none
  else if cs.length = 7 then some 7
  else if cs[4]? = some '-' then
    if cs[5]? = some 'W' then
      if cs[8]? = some '-' then
        if cs.length = 9 then none
        else if 10 < cs.length ∧ cs[10]?.any Char.isDigit then some 8
        else some 10
      else some 8
    else some 10
  else if cs[4]? = some 'W' then
    let digitsEnd := 7 + ((cs.drop 7).takeWhile Char.isDigit).length
    if digitsEnd < 9 then some digitsEnd
    else if digitsEnd % 2 = 0 then some 7
    else some 8
  else some 8

/-! ## Times -/

/-- The numbers of a time of day, and whether the text ended with them. -/
structure Reading where
  hour : Nat
  minute : Nat
  second : Nat
  micros : Nat
  ended : Bool

/-- A fraction of a second in microseconds; digits after the sixth are passed over. -/
def fraction? (cs : List Char) : Option (Nat × List Char) := do
  let width := min cs.length 6
  let (n, rest) ← digits? width cs
  some (n * Nat.pow 10 (6 - width), rest.dropWhile Char.isDigit)

/-- Whether a text ends here: nothing is left, or a NUL comes next. -/
def endsHere (cs : List Char) : Bool := cs.head?.all (· == '\x00')

/-- How a run of digit pairs stops. -/
inductive Stop
  /-- Nothing is left, or only a NUL. -/
  | ended
  /-- One other ASCII character was passed over. -/
  | skipped
  /-- A fraction of a second follows. -/
  | fraction (cs : List Char)

/-- What follows a pair of digits and is longer than one character: the next pair, found after a
colon if the first pair was followed by one, or a fraction after its mark. -/
def afterPair? (colons : Bool) : List Char → Option (List Char ⊕ List Char)
  | c :: rest =>
    if colons && c == ':' then some (.inl rest)
    else if c == '.' || c == ',' then some (.inr rest)
    else if colons then none
    else some (.inl (c :: rest))
  | [] => none

/-- Reads up to `count + 1` pairs of digits. What follows the last one is a fraction. -/
def pairs? (colons? : Option Bool) : (count : Nat) → List Char → Option (List Nat × Stop)
  | count, cs =>
    (digits? 2 cs).bind fun (n, rest) =>
      match rest with
      | [] => some ([n], .ended)
      | ['\x00'] => some ([n], .ended)
      | [c] => if c.toNat < 128 then some ([n], .skipped) else none
      | rest =>
        let colons := colons?.getD (rest.head? == some ':')
        match afterPair? colons rest, count with
        | none, _ => none
        | some (.inr rest), _ => some ([n], .fraction rest)
        | some (.inl rest), 0 => some ([n], .fraction rest)
        | some (.inl rest), count + 1 =>
          (pairs? (some colons) count rest).map fun (ns, stop) => (n :: ns, stop)

/-- Reads a time of day that reaches up to the end of `cs`, where `last` tells whether the whole
text ends there. One character after a pair of digits is passed over and counted as text that is
left; a fraction counts for the microseconds after whichever pair it stands. -/
def clock? (last : Bool) (cs : List Char) : Option Reading := do
  let (ns, stop) ← pairs? none 2 cs
  let (micros, ended) ← match stop with
    | .ended => some (0, last)
    | .skipped => some (0, false)
    | .fraction cs => (fraction? cs).map fun (micros, rest) => (micros, last && endsHere rest)
  some ⟨ns.getD 0 0, ns.getD 1 0, ns.getD 2 0, micros, ended⟩

/-- Whether `c` starts an offset. -/
def startsOffset (c : Char) : Bool := c == '+' || c == '-' || c == 'Z'

/-- The numbers of a time, and its offset in microseconds if it has one. An offset of no whole
seconds is universal time, whatever its fraction. -/
def time? (cs : List Char) : Option (Reading × Option Int) := do
  let before := cs.takeWhile (!startsOffset ·)
  match cs.dropWhile (!startsOffset ·) with
  | [] =>
    let reading ← clock? true before
    if reading.ended then some (reading, none) else none
  | mark :: after =>
    let reading ← clock? false before
    if mark = 'Z' then
      if endsHere after then some (reading, some 0) else none
    else
      let offset ← clock? true after
      if offset.ended then
        let seconds : Int := offset.hour * 3600 + offset.minute * 60 + offset.second
        let micros : Int := if seconds = 0 then 0 else seconds * 1000000 + offset.micros
        some (reading, some (if mark = '-' then -micros else micros))
      else none

/-- The offset of a number of microseconds that may be missing. -/
def offsetOf (micros : Option Int) : Except CalendarFault (Option Offset) :=
  match micros with
  | some micros => (Offset.ofMicros micros).map some
  | none => .ok none

/-- Reads a time of day; a leading `T` is allowed. -/
def readTime (s : String) : Except CalendarFault Time :=
  let cs := match s.toList with
    | 'T' :: rest => rest
    | cs => cs
  match (whole? cs).bind time? with
  | none => .error (.unreadable s)
  | some (r, micros) => do
    let offset ← offsetOf micros
    let clock ← Clock.ofParts r.hour r.minute r.second r.micros
    .ok ⟨clock, offset⟩

def dateTime? (cs : List Char) : Option ((Nat × Nat × Nat) × Reading × Option Int) := do
  let width ← dateWidth? cs
  let parts ← date? width (cs.take width)
  match cs.drop width with
  | [] => some (parts, ⟨0, 0, 0, 0, true⟩, none)
  | _ :: time =>
    let (reading, micros) ← time? time
    some (parts, reading, micros)

/-- Where a half of a surrogate pair can separate the date of a timestamp from its time. -/
def separatorPlaces : List Nat := [7, 8, 10]

/-- The text with a `T` for a half of a surrogate pair that stands in the first such place. -/
def separated (cs : List Char) : List Char :=
  match separatorPlaces.find? fun i => cs[i]?.any Text.isHalf with
  | some i => cs.set i 'T'
  | none => cs

/-- Reads a timestamp. A faulty offset is reported before a faulty date, and that before a faulty
time of day. -/
def readDateTime (s : String) : Except CalendarFault DateTime :=
  match (whole? (separated s.toList)).bind dateTime? with
  | none => .error (.unreadable s)
  | some ((year, month, day), r, micros) => do
    let offset ← offsetOf micros
    let date ← Date.ofParts year month day
    let clock ← Clock.ofParts r.hour r.minute r.second r.micros
    .ok ⟨date, clock, offset⟩

end Rowgate.Iso
