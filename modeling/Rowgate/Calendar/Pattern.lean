import Rowgate.Calendar.Date
import Rowgate.Text.Blank
import Rowgate.Text.Digit

/-!
# Dates written to a pattern

Dates as people type them, day first or year first, with an optional time. A number of a pattern is
written in one or two digits (four for the year), digits of any script included where the value
allows. Each number has a list of spellings; the first spelling from which the rest of the pattern
can be matched is taken. A text matches only if the pattern uses it up.
-/

namespace Rowgate.Pattern

inductive Item
  | day
  | month
  | year
  | hour
  | minute
  | second
  /-- One given character. -/
  | mark (c : Char)
  /-- One blank or more. -/
  | blanks

/-- One spelling of a number: what each of its characters may be. -/
abbrev Spelling := List (Char → Bool)

/-- The characters from `lo` to `hi`. -/
def between (lo hi c : Char) : Bool := decide (lo ≤ c) && decide (c ≤ hi)

/-- The spellings of a number, in the order in which they are tried. -/
def Item.spellings : Item → List Spelling
  | .day => [[(· == '3'), between '0' '1'], [between '1' '2', Text.isDecimal],
      [(· == '0'), between '1' '9'], [between '1' '9'], [(· == ' '), between '1' '9']]
  | .month => [[(· == '1'), between '0' '2'], [(· == '0'), between '1' '9'], [between '1' '9']]
  | .year => [[Text.isDecimal, Text.isDecimal, Text.isDecimal, Text.isDecimal]]
  | .hour => [[(· == '2'), between '0' '3'], [between '0' '1', Text.isDecimal], [Text.isDecimal]]
  | .minute => [[between '0' '5', Text.isDecimal], [Text.isDecimal]]
  | .second =>
    [[(· == '6'), between '0' '1'], [between '0' '5', Text.isDecimal], [Text.isDecimal]]
  | .mark c => [[(· == c)]]
  | .blanks => []

/-- The start of the text in a spelling, and what follows it. -/
def Spelling.take? : Spelling → List Char → Option (List Char × List Char)
  | [], cs => some ([], cs)
  | _ :: _, [] => none
  | p :: spelling, c :: cs =>
    if p c then (Spelling.take? spelling cs).map fun (taken, rest) => (c :: taken, rest) else none

/-- The number of a run of digits of any script; blanks before it do not count. -/
def numberOf (cs : List Char) : Nat :=
  cs.foldl (fun n c => match Text.digitValue? c with | some d => 10 * n + d | none => n) 0

/-- The numbers of a date and a time that a pattern may leave out. -/
structure Numbers where
  day : Nat
  month : Nat
  year : Nat
  hour : Nat
  minute : Nat
  second : Nat

def Numbers.set (ns : Numbers) : Item → Nat → Numbers
  | .day, n => { ns with day := n }
  | .month, n => { ns with month := n }
  | .year, n => { ns with year := n }
  | .hour, n => { ns with hour := n }
  | .minute, n => { ns with minute := n }
  | .second, n => { ns with second := n }
  | .mark _, _ => ns
  | .blanks, _ => ns

/-- Matches the items against the start of the text; what is left comes with the numbers. -/
def matchItems : List Item → Numbers → List Char → Option (Numbers × List Char)
  | [], ns, cs => some (ns, cs)
  | .blanks :: items, ns, cs =>
    if cs.head?.any Text.isBlank then matchItems items ns (cs.dropWhile Text.isBlank) else none
  | item :: items, ns, cs =>
    item.spellings.findSome? fun spelling =>
      (spelling.take? cs).bind fun (taken, rest) =>
        matchItems items (ns.set item (numberOf taken)) rest

/-- The numbers of a text that a pattern uses up. -/
def numbers? (items : List Item) (cs : List Char) : Option Numbers :=
  match matchItems items ⟨0, 0, 0, 0, 0, 0⟩ cs with
  | some (ns, []) => some ns
  | _ => none

/-- The date of the numbers, if they are one. -/
def Numbers.date? (ns : Numbers) : Option Date := (Date.ofParts ns.year ns.month ns.day).toOption

/-- The timestamp of the numbers, without an offset. -/
def Numbers.dateTime? (ns : Numbers) : Option DateTime := do
  let date ← ns.date?
  let clock ← (Clock.ofParts ns.hour ns.minute ns.second 0).toOption
  some ⟨date, clock, none⟩

/-! ## The patterns in use -/

/-- Day, month and year with a mark between them. -/
def dayFirst (c : Char) : List Item := [.day, .mark c, .month, .mark c, .year]

/-- Year, month and day with a mark between them. -/
def yearFirst (c : Char) : List Item := [.year, .mark c, .month, .mark c, .day]

def hourMinute : List Item := [.hour, .mark ':', .minute]

def hourMinuteSecond : List Item := hourMinute ++ [.mark ':', .second]

/-- The patterns of dates, in the order in which they are tried. -/
def datePatterns : List (List Item) := [dayFirst '/', dayFirst '.', yearFirst '/']

/-- The patterns of timestamps, in the order in which they are tried. -/
def dateTimePatterns : List (List Item) := [
  dayFirst '/' ++ .blanks :: hourMinute, dayFirst '/' ++ .blanks :: hourMinuteSecond,
  yearFirst '/' ++ .blanks :: hourMinuteSecond]

/-- The date of a text in the first pattern that yields one. -/
def readDate? (cs : List Char) : Option Date :=
  datePatterns.findSome? fun items => (numbers? items cs).bind Numbers.date?

/-- The timestamp of a text in the first pattern that yields one. -/
def readDateTime? (cs : List Char) : Option DateTime :=
  dateTimePatterns.findSome? fun items => (numbers? items cs).bind Numbers.dateTime?

end Rowgate.Pattern
