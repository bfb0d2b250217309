import Rowgate.Json.Reader
import Rowgate.Json.Writer
import Rowgate.Value.Order
import Rowgate.Value.Shape
import Rowgate.Text.Similar

/-!
# What can go wrong

Every operation that can fail names its cause. `Fault.message` words the cause, and `Fault.body` is
what a client is told of the causes that are its own doing.
-/

namespace Rowgate

/-- Why a value cannot be used where it stands. -/
inductive ValueFault
  | notNumber (v : Value)
  | notFinite (v : Value)
  | notDate (v : Value)
  | notDateTime (v : Value)
  | notTime (v : Value)
  | notBytes (v : Value)
  | notText (v : Value)
  | badBase64 (s : String)
  | notAscii
  | calendar (f : CalendarFault)
  | integer (f : IntegerFault)
  | notInteger (s : String)
  /-- There is no string of octets of a negative length. -/
  | negativeCount
  /-- An integer is no octet. -/
  | notOctet
  | badDirection (v : Value)
  /-- A range needs a field and both bounds. -/
  | noField
  | noLowerBound
  | noUpperBound

def ValueFault.message : ValueFault → String
  | .notNumber v => v.describe "Cannot convert " " to a number"
  | .notFinite v => v.describe "Cannot convert " " to a finite number"
  | .notDate v => v.describe "Cannot convert " " to a date"
  | .notDateTime v => v.describe "Cannot convert " " to a datetime"
  | .notTime v => v.describe "Cannot convert " " to a time"
  | .notBytes v => v.describe "Cannot convert " " to bytes"
  | .notText v => v.describe "Cannot convert " " to a string"
  | .badBase64 s => "Invalid base64 payload: " ++ Text.quoted s
  | .notAscii => "string argument should contain only ASCII characters"
  | .calendar f => f.message
  | .integer f => f.message
  | .notInteger s =>
    "invalid literal for int() with base 10: " ++ String.ofList ((Text.quoted s).toList.take 200)
  | .negativeCount => "negative count"
  | .notOctet => "bytes must be in range(0, 256)"
  | .badDirection v => v.describe "" " is not a valid SortDirection"
  | .noField => "field must not be empty"
  | .noLowerBound => "from_ must not be None"
  | .noUpperBound => "to must not be None"

def textList (texts : List String) : Value := .list (texts.map .str)

/-- Messages about a part of a request, and the value that they are shown as. -/
structure Messages where
  texts : List String
  shown : Value

def Messages.ofTexts (texts : List String) : Messages := ⟨texts, textList texts⟩

/-- The messages that a value holds: the texts of a list, the names of a dictionary, or the letters
of a text. -/
def Messages.ofValue? (v : Value) : Option Messages :=
  match v with
  | .list vs => (vs.mapM Value.str?).map fun texts => ⟨texts, v⟩
  | .dict entries => some ⟨entries.map (·.1), v⟩
  | .str s => some ⟨s.toList.map fun c => String.ofList [c], v⟩
  | _ => none

/-- Messages about the parts of a request, by part. -/
abbrev Errors := List (String × Messages)

/-- The part of the messages that concern the request as a whole. -/
def wholeRequest : String := "__root__"

/-- The messages of all parts in one line. -/
def Errors.message (errors : Errors) : String :=
  let parts := errors.map fun (name, messages) =>
    let joined := "; ".intercalate messages.texts
    if name = wholeRequest then joined else name ++ ": " ++ joined
  let line := ", ".intercalate parts
  if line.isEmpty then "Validation failed" else line

/-- The part of a request that is invalid. -/
inductive Part
  | request
  | filter
  | body
  deriving DecidableEq

inductive DatabaseFault
  /-- A constraint does not hold. -/
  | integrity (text : String)
  /-- The statement cannot be run. -/
  | operational (text : String)
  deriving DecidableEq

inductive Fault
  | value (f : ValueFault)
  /-- Data do not have the shape they must have. -/
  | shape (problems : List Shape.Problem)
  | invalid (part : Part) (errors : Errors)
  | unknownOperator (name : String) (known : List String)
  | duplicateKey (entity : String) (key : Record)
  | readOnly (entity operation : String)
  /-- A conflict, or any failure, that has no more than a message. -/
  | conflict (message : String)
  | failure (message : String)
  | order (f : OrderFault)
  /-- A list or a dictionary stands where a key is needed. -/
  | noKey
  /-- A value that holds no texts, or that has no entries, stands where such a one is needed. -/
  | noTexts
  | noEntries
  /-- An infinity stands where an integer is needed. -/
  | infinite
  /-- A number is too large for what it counts or for a floating point number. -/
  | tooLarge
  /-- The exponent of a number is out of range. -/
  | exponent
  /-- The lists and dictionaries of a JSON text are nested too deeply. -/
  | nesting (r : Json.Refusal)
  /-- A value has no JSON text that can be sent. -/
  | unwritable (f : Json.WriteFault)
  /-- A text has no octets. -/
  | noOctets (halves : Text.Halves)
  /-- A file already holds a record with the key. -/
  | keyTaken
  /-- A table has no columns to order by. -/
  | noColumns
  /-- A text is no address of a database. -/
  | notAddress
  /-- A column has no name, or the name of another column. -/
  | unnamedColumn
  | repeatedColumn
  /-- A statement is about a table without a name. -/
  | unnamedTable
  /-- A column and another slot of a statement have one name. -/
  | ambiguous
  /-- Two columns of a statement have one mark. -/
  | commonMark
  /-- A statement that is shown has a mark under which no value is found. -/
  | missedMark
  /-- A truth value has no place in the order of a column. -/
  | truthOrder
  | database (f : DatabaseFault)
  /-- A backend cannot be reached. -/
  | unavailable (message : String)

namespace Fault

def ofMessages (part : Part) (name : String) (texts : List String) : Fault :=
  .invalid part [(name, Messages.ofTexts texts)]

/-- The messages that a value gives: by its entries, or about the request as a whole. -/
def errorsOf (v : Value) : Except Fault Errors :=
  match v with
  | .null => .ok []
  | .str s => .ok [(wholeRequest, Messages.ofTexts [s])]
  | .dict entries => entries.mapM fun (name, v) =>
    match Messages.ofValue? v with
    | some messages => .ok (name, messages)
    | none => .error .noTexts
  | _ => .error .noEntries

/-- A duplicate key; a key whose values have no text cannot be reported. -/
def ofDuplicateKey (entity : String) (key : Record) : Fault :=
  match (Value.dict key).literal with
  | .ok _ => .duplicateKey entity key
  | .error f => .value (.integer f)

/-- The names that resemble an unknown operator. -/
def suggestions (name : String) (known : List String) : List String := Text.closestNames name known

def unknownOperatorText (name : String) (known : List String) : String :=
  let similar := suggestions name known
  "Unknown operator: '" ++ name ++ "'." ++
    if similar.isEmpty then "" else " Did you mean: " ++ ", ".intercalate similar ++ "?"

/-- The messages of a fault by the part of the request. -/
def errors : Fault → Errors
  | .invalid _ errors => errors
  | .unknownOperator name known =>
    [("operator", Messages.ofTexts [unknownOperatorText name known])]
  | _ => []

def message : Fault → String
  | .value f => f.message
  | .shape problems => "; ".intercalate (problems.map (·.message))
  | .invalid _ errors => errors.message
  | .unknownOperator name known => Errors.message (errors (.unknownOperator name known))
  | .duplicateKey entity key => (Value.dict key).describe "Duplicate key " (" on entity " ++ entity)
  | .readOnly entity operation =>
    "Entity " ++ entity ++ " is read-only: " ++ operation ++ " is not supported"
  | .conflict message => message
  | .failure message => message
  | .unavailable message => message
  | .database (.integrity text) => text
  | .database (.operational text) => text
  | .order _ => "values cannot be compared"
  | .noKey => "value cannot be a key"
  | .noTexts => "value holds no texts"
  | .noEntries => "value has no entries"
  | .infinite => "number is infinite"
  | .tooLarge => "number is too large"
  | .exponent => "exponent out of range"
  | .nesting r => r.message
  | .unwritable f => f.message
  | .noOctets halves => Utf8.halvesMessage halves
  | .keyTaken => "key is taken"
  | .noColumns => "table has no columns"
  | .notAddress => "text is no address"
  | .unnamedColumn => "column has no name"
  | .repeatedColumn => "column name is taken"
  | .unnamedTable => "table has no name"
  | .ambiguous => "statement is ambiguous"
  | .commonMark => "mark is shared"
  | .missedMark => "mark is not found"
  | .truthOrder => "truth values have no order"

def errorsValue (errors : Errors) : Value :=
  .dict (errors.map fun (name, messages) => (name, messages.shown))

/-- A value of a key as it is reported. -/
def keyText (v : Value) : Value :=
  match v.plainText with
  | .ok s => .str s
  | .error f => .str f.message

def sortedNames (names : List String) : List String := names.mergeSort Text.notAfter

/-- What a client is told of a fault. -/
def body (f : Fault) : Record :=
  match f with
  | .unknownOperator name known => [
      ("error", .str "OPERATOR_NOT_FOUND"), ("operator", .str name),
      ("suggestions", textList (suggestions name known)),
      ("valid_operators", textList (sortedNames known))]
  | .invalid _ errors => [
      ("error", .str "VALIDATION_ERROR"), ("message", .str f.message),
      ("errors", errorsValue errors)]
  | .duplicateKey _ key => [
      ("error", .str "DUPLICATE_KEY"), ("message", .str f.message),
      ("key", .dict (key.map fun (name, v) => (name, keyText v)))]
  | .readOnly .. => [
      ("error", .str "UnsupportedOperationError"), ("message", .str f.message)]
  | .conflict _ => [("error", .str "ConflictError"), ("message", .str f.message)]
  | _ => [("error", .str "MetaRestError"), ("message", .str f.message)]

/-- The fault of a refused JSON text; what is malformed is a fault as `malformed` says. A number
that is too large, or nesting that is too deep, is not. -/
def ofRefusal (malformed : String → Fault) : Json.Refusal → Fault
  | .integer f => .value (.integer f)
  | .exponent => .exponent
  | .nesting opening => .nesting (.nesting opening)
  | r => malformed r.message

/-- The fault of a value without a JSON text. -/
def ofWriteFault : Json.WriteFault → Fault
  | .integer f => .value (.integer f)
  | f => .unwritable f

/-- The fault of a rejected structure, among operators of the names given. -/
def ofRejection (known : List String) : Shape.Rejection → Fault
  | .problems ps => .shape ps
  | .unknownOperator name => .unknownOperator name known

end Fault

end Rowgate
