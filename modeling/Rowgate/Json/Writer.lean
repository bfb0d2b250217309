import Rowgate.Value.Text
import Rowgate.Encoding.Base64
import Rowgate.Encoding.Utf8

/-!
# Writing JSON

Values are written without blanks. A decimal is written as a number with exactly its digits, an
integral one without a point; a decimal that is no number becomes null. Octets are written in the
alphabet of sixty-four characters, dates and times in the international notation, where an offset
has hours and minutes only and universal time is `Z`.

`render` writes every value whose integers have a text. What is sent to a client has to pass a check
as well: its values must not be nested too deeply, and its texts must not hold halves of surrogate
pairs, which only escapes could write.
-/

namespace Rowgate.Json

/-- The number text of a decimal; `none` for infinities and what is no number. An integral decimal
with too many digits has no text. -/
def decimalText : Decimal → Except IntegerFault (Option (List Char))
  | .finite n c e =>
    if (Decimal.finite n c e).isIntegral then
      -- the digits are counted before the number is built
      if c ≠ 0 ∧ (digitLimit : Int) < digitCount c + e then .error .tooLongToWrite
      else (integerText (Decimal.truncate n c e)).map (some ·.toList)
    else .ok (some (Decimal.plainDigits n c e))
  | _ => .ok none

def stringChar (c : Char) : List Char :=
  if c = '"' then ['\\', '"']
  else if c = '\\' then ['\\', '\\']
  else if c = '\x08' then ['\\', 'b']
  else if c = '\x0c' then ['\\', 'f']
  else if c = '\n' then ['\\', 'n']
  else if c = '\r' then ['\\', 'r']
  else if c = '\t' then ['\\', 't']
  else if c.toNat < 0x20 || Text.isHalf c then '\\' :: 'u' :: Text.hex 4 (Text.codeOf c)
  else [c]

def string (cs : List Char) : List Char := '"' :: (cs.flatMap stringChar ++ ['"'])

/-- An offset in hours and minutes; parts of a second count downward. -/
def offset (o : Offset) : List Char :=
  let seconds := o.micros.fdiv 1000000
  if seconds = 0 then ['Z']
  else
    (if seconds < 0 then '-' else '+') ::
      (padded 2 (seconds.natAbs / 3600) ++ ':' :: padded 2 (seconds.natAbs / 60 % 60))

/-- The offset of a moment, if it has one. -/
def offsetIfAny (o : Option Offset) : List Char := (o.map offset).getD []

/-- The style of floating point numbers, `0.00001` and `1e-6`. -/
def floatStyle : Binary64.Style := ⟨4, 1⟩

/-- A floating point number; it may be infinite or no number at all. -/
def float : Binary64 → List Char
  | .nan => "NaN".toList
  | .infinite n => if n then "-Infinity".toList else "Infinity".toList
  | .finite n m q => Binary64.finiteText floatStyle n m q

mutual

/-- The JSON text of a value, whatever its nesting and its texts. -/
def render : Value → Except IntegerFault (List Char)
  | .null => .ok "null".toList
  | .bool b => .ok (if b then "true".toList else "false".toList)
  | .int i => .ok (signedDigits i)
  | .decimal d => (decimalText d).map fun text => text.getD "null".toList
  | .float f => .ok (float f)
  | .str s => .ok (string s.toList)
  | .bytes octets => .ok (string (Base64.encode octets))
  | .date d => .ok (string d.iso)
  | .dateTime t => .ok (string (t.date.iso ++ 'T' :: (t.clock.iso ++ offsetIfAny t.offset)))
  | .time t => .ok (string (t.clock.iso ++ offsetIfAny t.offset))
  | .list items => (renderItems items).map fun items => '[' :: (items ++ [']'])
  | .dict entries => (renderEntries entries).map fun entries => '\x7b' :: (entries ++ ['\x7d'])

/-- The items of a list with commas between them. -/
def renderItems : List Value → Except IntegerFault (List Char)
  | [] => .ok []
  | v :: vs => do
    let text ← render v
    match vs with
    | [] => .ok text
    | _ :: _ =>
      let rest ← renderItems vs
      .ok (text ++ ',' :: rest)

/-- The entries of a dictionary with commas between them. -/
def renderEntries : List (String × Value) → Except IntegerFault (List Char)
  | [] => .ok []
  | (k, v) :: es => do
    let text ← render v
    match es with
    | [] => .ok (string k.toList ++ ':' :: text)
    | _ :: _ =>
      let rest ← renderEntries es
      .ok (string k.toList ++ ':' :: (text ++ ',' :: rest))

end

/-! ## What can be sent -/

/-- Why a value has no JSON text that can be sent. -/
inductive WriteFault
  | integer (fault : IntegerFault)
  | tooDeep
  | halves (found : Text.Halves)
  deriving DecidableEq

def WriteFault.message : WriteFault → String
  | .integer fault => fault.message
  | .tooDeep => "Error serializing to JSON: ValueError: Maximum serialization depth exceeded"
  | .halves found =>
    "Error serializing to JSON: UnicodeEncodeError: " ++ Utf8.halvesMessage found

/-- How many values may lie inside each other, the outermost one included. -/
def depthLimit : Nat := 255

def checkText (s : String) : Except WriteFault Unit :=
  match Text.halves? s.toList with
  | none => .ok ()
  | some found => .error (.halves found)

mutual

/-- Checks a value that may be `depth` values deep. -/
def check : (depth : Nat) → Value → Except WriteFault Unit
  | 0, _ => .error .tooDeep
  | depth + 1, v =>
    match v with
    | .str s => checkText s
    | .list items => checkItems depth items
    | .dict entries => checkEntries depth entries
    | _ => .ok ()

/-- Checks the items of a list in order. -/
def checkItems (depth : Nat) : List Value → Except WriteFault Unit
  | [] => .ok ()
  | v :: vs => do
    check depth v
    checkItems depth vs

/-- Checks the names and values of a dictionary in order. -/
def checkEntries (depth : Nat) : List (String × Value) → Except WriteFault Unit
  | [] => .ok ()
  | (k, v) :: es => do
    checkText k
    check depth v
    checkEntries depth es

end

/-- The JSON text of a value that can be sent and is no more than `depth` values deep. -/
def writeWithin (depth : Nat) (v : Value) : Except WriteFault String :=
  match render v with
  | .error fault => .error (.integer fault)
  | .ok cs => do
    check depth v
    .ok (String.ofList cs)

/-- The JSON text of a value that can be sent. -/
def write (v : Value) : Except WriteFault String := writeWithin depthLimit v

end Rowgate.Json
