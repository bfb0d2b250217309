import Rowgate.Value.Basic
import Rowgate.Number.Shortest
import Rowgate.Calendar.IsoText

/-!
# Values as text

Inside a message a value is written so that its kind shows: texts between quotes, decimals and
moments with their names, lists in brackets. On its own it is written plainly, a text as itself and
a moment in the international notation. Either way an integer with too many digits has no text.
-/

namespace Rowgate.Value

def commaJoined (items : List (List Char)) : List Char := [',', ' '].intercalate items

mutual

/-- The value as it is shown inside a message. -/
def literal : Value → Except IntegerFault (List Char)
  | .null => .ok "None".toList
  | .bool b => .ok (if b then "True".toList else "False".toList)
  | .int i => (integerText i).map String.toList
  | .decimal d => .ok ("Decimal('".toList ++ d.text.toList ++ "')".toList)
  | .float f => .ok f.text.toList
  | .str s => .ok (Text.quoted s).toList
  | .bytes octets => .ok (Text.quotedOctets octets).toList
  | .date d => .ok d.parts
  | .dateTime t => .ok t.parts
  | .time t => .ok t.parts
  | .list items => (literals items).map fun items => '[' :: (commaJoined items ++ [']'])
  | .dict entries =>
    (entryLiterals entries).map fun entries => '\x7b' :: (commaJoined entries ++ ['\x7d'])

/-- The values of a list as they are shown inside a message. -/
def literals : List Value → Except IntegerFault (List (List Char))
  | [] => .ok []
  | v :: vs => do
    let v ← literal v
    let vs ← literals vs
    .ok (v :: vs)

/-- The entries of a dictionary as they are shown inside a message. -/
def entryLiterals : List (String × Value) → Except IntegerFault (List (List Char))
  | [] => .ok []
  | (k, v) :: es => do
    let v ← literal v
    let es ← entryLiterals es
    .ok (((Text.quoted k).toList ++ ':' :: ' ' :: v) :: es)

end

def plain : Value → Except IntegerFault (List Char)
  | .str s => .ok s.toList
  | .decimal d => .ok d.text.toList
  | .date d => .ok d.iso
  | .dateTime t => .ok (t.iso ' ')
  | .time t => .ok t.iso
  | v => literal v

/-- The literal of a value as a string. -/
def literalText (v : Value) : Except IntegerFault String := v.literal.map String.ofList

/-- The plain text of a value as a string. -/
def plainText (v : Value) : Except IntegerFault String := v.plain.map String.ofList

/-- A message about a value, which names the value by its literal. A value without a text leaves
only the reason why. -/
def describe (before : String) (v : Value) (after : String) : String :=
  match v.literalText with
  | .ok s => before ++ s ++ after
  | .error e => e.message

end Rowgate.Value
