import Rowgate.Filter.Operator
import Rowgate.Log
import Rowgate.Text.Pieces
import Rowgate.Value.Order
import Rowgate.Value.Text

/-!
# Operators on values

What an operator says of a value and a condition. Null satisfies nothing but the question whether
there is a value, and a null condition is satisfied by nothing. Values that have no order are in no
order: every comparison of them is false, except that a decimal that is no number cannot be compared
at all. Operators that look for a text take any value as it is written.
-/

namespace Rowgate

namespace Value

/-- A text in small letters if `fold`; any other value as it is. -/
def folded (fold : Bool) : Value → Value
  | .str s => .str (if fold then Text.lowercase s else s)
  | v => v

/-- Whether two values are equal, if that can be told. -/
def equalTo (v w : Value) : Except Fault Bool :=
  if refusesEquality v w then .error (.order .notANumber) else .ok (equals v w)

/-- Whether the order of two values, if they have one, is as `wanted`. -/
def ordered (wanted : Ordering → Bool) (v w : Value) : Except Fault Bool :=
  match compare v w with
  | .ok o => .ok (o.any wanted)
  | .error .unlike => .ok false
  | .error .notANumber => .error (.order .notANumber)

/-- The text of a value, in small letters if `fold`. -/
def searchable (fold : Bool) (v : Value) : Except Fault (List Char) :=
  match v.plain with
  | .ok cs => .ok (if fold then Text.lower cs else cs)
  | .error f => .error (.value (.integer f))

end Value

namespace Operator

/-- Whether a text and a condition other than null satisfy an operator that looks for a text. -/
def matchesText (o : Operator) (text part : List Char) : Bool :=
  match o with
  | .startsWith => part.isPrefixOf text
  | .endsWith => part.isSuffixOf text
  | .contains => Text.occursIn part text
  | .doesNotContain => !Text.occursIn part text
  | _ => false

/-- Whether two values other than null satisfy an operator that compares values. -/
def comparesValues (o : Operator) (v w : Value) : Except Fault Bool :=
  match o with
  | .eq => v.equalTo w
  | .neq => (v.equalTo w).map (!·)
  | .lt => v.ordered (· == .lt) w
  | .lte => v.ordered (· != .gt) w
  | .gt => v.ordered (· == .gt) w
  | .gte => v.ordered (· != .lt) w
  | _ => .ok false

/-- Whether a value satisfies an operator with a condition; texts are taken in small letters if
`fold`. -/
def holds (o : Operator) (fold : Bool) (v condition : Value) : Except Fault Bool :=
  match o with
  | .isNull => .ok v.isNull
  | .isNotNull => .ok !v.isNull
  | .isEmpty => .ok (v.equals (.str ""))
  | .isNotEmpty => .ok (!v.isNull && !v.equals (.str ""))
  | .startsWith | .endsWith | .contains | .doesNotContain =>
    if v.isNull || condition.isNull then .ok false
    else do
      let text ← v.searchable fold
      let part ← condition.searchable fold
      .ok (o.matchesText text part)
  | _ =>
    if v.isNull || condition.isNull then .ok false
    else o.comparesValues (v.folded fold) (condition.folded fold)

end Operator

end Rowgate
