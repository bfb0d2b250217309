import Rowgate.Filter.Tree

/-!
# Conditions

The condition of a test is brought to the form of the tested field before anything is compared with
it. Operators that look at texts take any value as text, and operators without a condition have
none.
-/

namespace Rowgate

/-- A fault of the filter at a field. -/
def Filter.fault (field message : String) : Fault :=
  .ofMessages .filter field [message]

namespace Test

/-- The condition in the form of the field. -/
def coerced (t : Test) (field : Option Field) : Except Fault Value :=
  (coerceFor field t.value).mapError fun f => Filter.fault t.fieldName f.message

def asText : Value → Except Fault Value
  | .str s => .ok (.str s)
  | v =>
    match v.plainText with
    | .ok s => .ok (.str s)
    | .error f => .error (.value (.integer f))

/-- The condition of a test of a field. -/
def condition (t : Test) (field : Option Field) : Except Fault Value :=
  if t.operator.any Operator.isValueless || t.value.isNull then .ok .null
  else if t.operator.any Operator.isTextual then asText t.value
  else t.coerced field

/-- Whether a test of a field ignores the case of letters: only texts have letters. -/
def folds (t : Test) (field : Option Field) : Bool := t.ignoreCase && isTextual field

end Test

end Rowgate
