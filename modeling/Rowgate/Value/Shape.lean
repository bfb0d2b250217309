import Rowgate.Value.Text
import Rowgate.Encoding.Utf8
import Rowgate.Text.Pieces

/-!
# Checking the shape of a value

Structured data arrives as values: dictionaries with known names, lists, texts, numbers and truth
values. A check turns a value into the structure it stands for or lists every problem with the path
to it. A name may be spelled in two ways; the first spelling wins if both are there, and a problem
is reported under the spelling that was used.

Checks forgive what has one clear meaning: a truth value may be written as a word or as 0 or 1, an
integer as a text or as a number without a fraction, and any text in octets.

An operator that does not exist ends a check at once, whatever other problems there are.
-/

namespace Rowgate.Shape

inductive Cause
  | required
  | notText
  | notReadableText
  | notTruth
  | unclearTruth
  | notInteger
  | unclearInteger
  | tooLongInteger
  | fractional
  | notFinite
  | notList
  | notTuple
  | notStructure (name : String)
  | notOneOf (choices : List String)
  /-- The value is nested too deeply. -/
  | tooDeep
  /-- A rule of the structure is broken. -/
  | rule (message : String)
  deriving DecidableEq

/-- Choices between quotes, with a word before the last one. -/
def choiceText : List String → String
  | [] => ""
  | [c] => "'" ++ c ++ "'"
  | [c, d] => "'" ++ c ++ "' or '" ++ d ++ "'"
  | c :: cs => "'" ++ c ++ "', " ++ choiceText cs

def Cause.message : Cause → String
  | .required => "Field required"
  | .notText => "Input should be a valid string"
  | .notReadableText =>
    "Input should be a valid string, unable to parse raw data as a unicode string"
  | .notTruth => "Input should be a valid boolean"
  | .unclearTruth => "Input should be a valid boolean, unable to interpret input"
  | .notInteger => "Input should be a valid integer"
  | .unclearInteger => "Input should be a valid integer, unable to parse string as an integer"
  | .tooLongInteger => "Unable to parse input string as an integer, exceeded maximum size"
  | .fractional => "Input should be a valid integer, got a number with a fractional part"
  | .notFinite => "Input should be a finite number"
  | .notList => "Input should be a valid list"
  | .notTuple => "Input should be a valid tuple"
  | .notStructure name => "Input should be a valid dictionary or instance of " ++ name
  | .notOneOf choices => "Input should be " ++ choiceText choices
  | .tooDeep => "Recursion error - maximum validation depth exceeded"
  | .rule message => "Value error, " ++ message

structure Problem where
  path : List String
  cause : Cause
  deriving DecidableEq

/-- The wording of a problem with its path, if it is not at the top. -/
def Problem.message (p : Problem) : String :=
  if p.path.isEmpty then p.cause.message else ".".intercalate p.path ++ ": " ++ p.cause.message

inductive Rejection
  | problems (ps : List Problem)
  | unknownOperator (name : String)

abbrev Checked (α : Type) := Except Rejection α

/-- A single problem at this place. -/
def problem {α : Type} (cause : Cause) : Checked α := .error (.problems [⟨[], cause⟩])

/-- The result of a check of a part, its problems reported under `key`. -/
def within {α : Type} (key : String) : Checked α → Checked α
  | .ok a => .ok a
  | .error (.problems ps) =>
    .error (.problems (ps.map fun p => { p with path := key :: p.path }))
  | .error (.unknownOperator name) => .error (.unknownOperator name)

/-- The results of two checks. All problems of both are listed; an unknown operator ends both. -/
def both {α β : Type} (a : Checked α) (b : Checked β) : Checked (α × β) :=
  match a, b with
  | .ok x, .ok y => .ok (x, y)
  | .error (.unknownOperator n), _ => .error (.unknownOperator n)
  | _, .error (.unknownOperator n) => .error (.unknownOperator n)
  | .error (.problems ps), .error (.problems qs) => .error (.problems (ps ++ qs))
  | .error e, .ok _ => .error e
  | .ok _, .error e => .error e

/-- The results of checks of a list, each reported under its place in the list. -/
def sequence {α : Type} (start : Nat) : List (Checked α) → Checked (List α)
  | [] => .ok []
  | c :: cs =>
    (both (within (toString start) c) (sequence (start + 1) cs)).map fun (x, xs) => x :: xs

/-! ## Dictionaries -/

/-- A name of a structure in its two spellings, the preferred one first. -/
structure Key where
  preferred : String
  other : String

def Key.plain (name : String) : Key := ⟨name, name⟩

/-- The spelling that a dictionary uses for a key, and the value there. -/
def Key.find? (key : Key) (r : Record) : Option (String × Value) :=
  match Record.field? r key.preferred with
  | some v => some (key.preferred, v)
  | none => (Record.field? r key.other).map fun v => (key.other, v)

/-- The member of a key, which has to be there. -/
def member {α : Type} (r : Record) (key : Key) (check : Value → Checked α) : Checked α :=
  match key.find? r with
  | some (name, v) => within name (check v)
  | none => within key.preferred (problem .required)

/-- The member of a key, `default` if it is not there. -/
def memberOr {α : Type} (r : Record) (key : Key) (default : α) (check : Value → Checked α) :
    Checked α :=
  match key.find? r with
  | some (name, v) => within name (check v)
  | none => .ok default

/-- The entries of a value that must stand for the structure `name`. -/
def structureOf (name : String) : Value → Checked Record
  | .dict entries => .ok entries
  | _ => problem (.notStructure name)

/-! ## Single values -/

/-- Null, or a value that passes the check. -/
def nullable {α : Type} (check : Value → Checked α) : Value → Checked (Option α)
  | .null => .ok none
  | v => (check v).map some

/-- A text; octets that code one are taken for it. -/
def text : Value → Checked String
  | .str s => .ok s
  | .bytes octets =>
    match Utf8.decode (octets.map UInt8.toNat) with
    | .ok cs => .ok (String.ofList cs)
    | .error _ => problem .notReadableText
  | _ => problem .notText

/-- The characters of a text in which another kind of value is written. Halves of surrogate pairs
make it unreadable, and octets that code no text are no such writing, as `unclear` says. -/
def wording? (unclear : Cause) : Value → Option (Checked (List Char))
  | .str s =>
    match Text.halves? s.toList with
    | none => some (.ok s.toList)
    | some _ => some (problem .notReadableText)
  | .bytes octets =>
    match Utf8.decode (octets.map UInt8.toNat) with
    | .ok cs => some (.ok cs)
    | .error _ => some (problem unclear)
  | _ => none

/-! ## Integers -/

/-- An integer written without any freedom: digits that do not start with a zero, or a zero alone,
perhaps after a minus sign. -/
def strictInteger (cs : List Char) : Checked Int :=
  let negative := cs.head? == some '-'
  let digits := if negative then cs.drop 1 else cs
  let run := digits.takeWhile Char.isDigit
  match run with
  | [] => problem .unclearInteger
  | '0' :: _ => if digits = ['0'] then .ok 0 else problem .unclearInteger
  | _ =>
    if digitLimit < run.length + (cs.length - digits.length) then problem .tooLongInteger
    else if run.length < digits.length then problem .unclearInteger
    else .ok (if negative then -(ofDigits run : Int) else ofDigits run)

/-- What follows some zeros, among which low lines may stand. Zeros alone leave their last
character, and so do zeros before a point. -/
def afterZeros (last : Char) : List Char → Option (List Char)
  | [] => some [last]
  | c :: rest =>
    if c = '0' ∨ c = '_' then afterZeros c rest
    else if c = '.' then some (last :: c :: rest)
    else if c.isDigit ∨ c = '-' then some (c :: rest)
    else none

/-- A text without the zeros that it starts with. -/
def dropZeros : List Char → Option (List Char)
  | [] => none
  | c :: rest =>
    if c = '0' then afterZeros c rest
    else if c.isDigit ∨ c = '-' then some (c :: rest)
    else none

/-- A text without a point that is followed by nothing but zeros, of which there is at least one. -/
def dropZeroFraction (cs : List Char) : List Char :=
  match cs.dropWhile (· != '.') with
  | '.' :: zeros =>
    if !zeros.isEmpty && zeros.all (· == '0') then cs.takeWhile (· != '.') else cs
  | _ => cs

/-- A text without low lines, if each of them stands alone between other characters. -/
def dropLowLines (cs : List Char) : List Char :=
  if (Text.splitAtChar '_' cs).any List.isEmpty then cs else cs.filter (· != '_')

/-- The strict writing of an integer that is written freely: with blanks around it, with a sign,
with zeros before the digits and after a point, and with low lines between digits. -/
def strictForm? (cs : List Char) : Option (List Char) :=
  let cs := Text.trimBoth Text.isUnicodeBlank cs
  let negative := cs.head? == some '-'
  let signed := negative || cs.head? == some '+'
  let digits := if signed then cs.drop 1 else cs
  if signed && digits.head? == some '-' then none
  else
    (dropZeros digits).map fun digits =>
      (if negative then ['-'] else []) ++ dropLowLines (dropZeroFraction digits)

/-- The integer of a text. What is too long in its strict writing is too long; in a free writing it
is not understood. -/
def integerOfText (cs : List Char) : Checked Int :=
  match strictInteger cs with
  | .ok i => .ok i
  | .error (.problems [⟨[], .tooLongInteger⟩]) => problem .tooLongInteger
  | .error _ =>
    match (strictForm? cs).map strictInteger with
    | some (.ok i) => .ok i
    | _ => problem .unclearInteger

/-- The least number that an integer of sixty-four bits is too small for. -/
def wordBound : Nat := Nat.pow 2 63

/-- Whether an integer fits into sixty-four bits. -/
def fitsWord (i : Int) : Bool := decide (-(wordBound : Int) ≤ i) && decide (i < wordBound)

/-- The integer of a decimal without a fraction. -/
def integerOfDecimal : Decimal → Checked Int
  | .finite n c e =>
    if (Decimal.finite n c e).isIntegral then .ok (Decimal.truncate n c e) else problem .fractional
  | _ => problem .notFinite

/-- The integer of a floating point number without a fraction; its distance from zero must be less
than what sixty-four bits can count. -/
def integerOfFloat (f : Binary64) : Checked Int := do
  let i ← integerOfDecimal f.toDecimal
  if i.natAbs < wordBound then .ok i else problem .tooLongInteger

def integer (v : Value) : Checked Int :=
  match v with
  | .bool b => .ok (if b then 1 else 0)
  | .int i => .ok i
  | .float f => integerOfFloat f
  | .decimal d => integerOfDecimal d
  | v =>
    match wording? .unclearInteger v with
    | some cs => cs >>= integerOfText
    | none => problem .notInteger

/-! ## Truth values -/

def truthOfWord (cs : List Char) : Checked Bool :=
  let word := String.ofList (cs.map Char.toLower)
  if ["0", "off", "f", "false", "n", "no"].contains word then .ok false
  else if ["1", "on", "t", "true", "y", "yes"].contains word then .ok true
  else problem .unclearTruth

/-- The truth value of 0 and 1; an integer of more than sixty-four bits is none at all. -/
def truthOfInt (i : Int) : Checked Bool :=
  if i = 0 then .ok false
  else if i = 1 then .ok true
  else problem (if fitsWord i then .unclearTruth else .notTruth)

/-- The truth value of a floating point number that is an integer. -/
def truthOfFloat (f : Binary64) : Checked Bool :=
  match integerOfFloat f with
  | .ok i => truthOfInt i
  | .error _ => problem .notTruth

/-- A truth value. A decimal counts as the nearest floating point number. -/
def truth (v : Value) : Checked Bool :=
  match v with
  | .bool b => .ok b
  | .int i => truthOfInt i
  | .float f => truthOfFloat f
  | .decimal d => truthOfFloat (.ofDecimal d)
  | v =>
    match wording? .unclearTruth v with
    | some cs => cs >>= truthOfWord
    | none => problem .notTruth

/-! ## Choices and lists -/

/-- One of some named choices; its name may be given in octets. -/
def oneOf {α : Type} (choices : List (String × α)) (v : Value) : Checked α :=
  let unknown : Cause := .notOneOf (choices.map (·.1))
  match wording? unknown v with
  | some (.ok cs) =>
    match choices.find? (·.1 == String.ofList cs) with
    | some c => .ok c.2
    | none => problem unknown
  | some (.error e) => .error e
  | none => problem unknown

/-- A list of any length, as `cause` says if it is none. -/
def items (cause : Cause) : Value → Checked (List Value)
  | .list vs => .ok vs
  | _ => problem cause

end Rowgate.Shape
