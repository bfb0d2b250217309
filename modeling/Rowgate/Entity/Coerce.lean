import Rowgate.Entity.Basic
import Rowgate.Encoding.Base64
import Rowgate.Calendar.IsoReader
import Rowgate.Fault

/-!
# Values of a field

A value that belongs to a field is brought to the one form that the kind of the field prescribes, so
that a condition of a filter and a value of a record meet in the same form: texts, dates, timestamps
and times as such, octets from their sixty-four characters, and numbers as integers where the scale
is zero and the number is integral, else as decimals. Null belongs to every field, and fields that
the metadata do not know take any value as it is.
-/

namespace Rowgate

/-- The fault of the calendar as a fault of a value. -/
def liftCalendar {α : Type} (r : Except CalendarFault α) : Except ValueFault α :=
  r.mapError .calendar

/-- Reads a timestamp with blanks around it; universal time may be written `Z`. -/
def readTimestamp (s : String) : Except ValueFault DateTime :=
  let cs := Text.trim s.toList
  let cs := match cs.reverse with
    | 'Z' :: rest => rest.reverse ++ "+00:00".toList
    | _ => cs
  liftCalendar (Iso.readDateTime (String.ofList cs))

/-- The date of a value; of a timestamp, its local date. -/
def toDate : Value → Except ValueFault Date
  | .dateTime t => .ok t.date
  | .date d => .ok d
  | .str s =>
    match Iso.readDate (Text.strip s) with
    | .ok d => .ok d
    | .error _ => (readTimestamp s).map (·.date)
  | v => .error (.notDate v)

/-- The timestamp of a value; of a date, its start. -/
def toDateTime : Value → Except ValueFault DateTime
  | .dateTime t => .ok t
  | .date d => .ok ⟨d, Clock.midnight, none⟩
  | .str s => readTimestamp s
  | v => .error (.notDateTime v)

/-- The time of a value; of a timestamp, its local time without the offset. -/
def toTime : Value → Except ValueFault Time
  | .dateTime t => .ok ⟨t.clock, none⟩
  | .time t => .ok t
  | .str s => liftCalendar (Iso.readTime (Text.strip s))
  | v => .error (.notTime v)

/-- The number of a finite decimal: an integer if the scale is zero and the number is integral. -/
def numberOfDecimal (v : Value) (scale : Int) (d : Decimal) : Except ValueFault Value :=
  match d with
  | .finite n c e =>
    if scale = 0 ∧ (Decimal.finite n c e).isIntegral then .ok (.int (Decimal.truncate n c e))
    else .ok (.decimal d)
  | _ => .error (.notFinite v)

/-- The number of a value at a scale. -/
def toNumber (scale : Int) (v : Value) : Except ValueFault Value :=
  match v with
  | .bool b => .ok (.int (if b then 1 else 0))
  | .int i => .ok (if scale = 0 then .int i else .decimal (.ofInt i))
  | .decimal d => numberOfDecimal v scale d
  | .float f =>
    match Decimal.ofText? f.text with
    | some d => numberOfDecimal v scale d
    | none => .error (.notNumber v)
  | .str s =>
    match Decimal.ofText? s with
    | some d => numberOfDecimal v scale d
    | none => .error (.notNumber v)
  | _ => .error (.notNumber v)

def toBytes : Value → Except ValueFault (List UInt8)
  | .bytes octets => .ok octets
  | .str s =>
    if s.toList.all fun c => c.toNat < 128 then
      match Base64.decode? s.toList with
      | some octets => .ok octets
      | none => .error (.badBase64 s)
    else .error .notAscii
  | v => .error (.notBytes v)

/-- The text of a value: a truth value in small letters, a number or a moment as it is written on
its own. -/
def toText (v : Value) : Except ValueFault String :=
  match v with
  | .str s => .ok s
  | .dict _ => .error (.notText v)
  | .list _ => .error (.notText v)
  | .bytes _ => .error (.notText v)
  | .bool b => .ok (if b then "true" else "false")
  | v => v.plainText.mapError .integer

/-- A value other than null in the form of the field. -/
def Field.coerceSome (f : Field) (v : Value) : Except ValueFault Value :=
  match f.kind with
  | .string => (toText v).map .str
  | .numeric => toNumber f.scale v
  | .date => (toDate v).map .date
  | .dateTime => (toDateTime v).map .dateTime
  | .time => (toTime v).map .time
  | .byteArray => (toBytes v).map .bytes

/-- A value in the form of the field. -/
def Field.coerce (f : Field) (v : Value) : Except ValueFault Value :=
  if v.isNull then .ok .null else f.coerceSome v

/-- A value in the form of the field, if there is a field. -/
def coerceFor (field : Option Field) (v : Value) : Except ValueFault Value :=
  match field with
  | some f => f.coerce v
  | none => .ok v

/-- A record with every value in the form of its field; the first value that has none is the
fault. -/
def coerceEntries (fields : List Field) : Record → Except ValueFault Record
  | [] => .ok []
  | (name, v) :: rest => do
    let v ← coerceFor (fieldNamed? fields name) v
    let rest ← coerceEntries fields rest
    .ok ((name, v) :: rest)

namespace Entity

/-- A record with every value in the form of its field. -/
def coerce (e : Entity) (r : Record) : Except ValueFault Record := coerceEntries e.fields r

/-- The key of a record: the values of the key fields, null for those it lacks. -/
def keyOf (e : Entity) (r : Record) : List Value := e.keyNames.map (Record.field r)

def keyRecord (e : Entity) (r : Record) : Record :=
  Record.ofEntries (e.keyNames.map fun name => (name, Record.field r name))

/-- The key fields that a record lacks or leaves null. -/
def missingKeys (e : Entity) (r : Record) : List String :=
  e.keyNames.filter fun name => (Record.field r name).isNull

/-- The fields of the metadata, in their order, with null for those the record lacks. -/
def project (e : Entity) (r : Record) : Record :=
  Record.ofEntries (e.fields.map fun f => (f.name, Record.field r f.name))

end Entity

/-- A finding about a request that is answered instead of a fault: what is wrong, and with which
fields. -/
structure Finding where
  message : String
  members : List String
  deriving DecidableEq

namespace Finding

def toRecord (f : Finding) : Record := [
  ("memberNames", textList f.members), ("message", .str f.message)]

def missingKey (name : String) : Finding := ⟨"Key field missing", [name]⟩

def notFound (e : Entity) : Finding := ⟨"Record not found", e.keyNames⟩

end Finding

/-- One finding for each key field that a record lacks. -/
def Entity.missingFindings (e : Entity) (r : Record) : List Finding :=
  (e.missingKeys r).map .missingKey

end Rowgate
