import Rowgate.Json.Writer
import Rowgate.Text.Digit

/-!
# Decimals by way of marks

The encoder that values are handed to knows no decimals. So every decimal is replaced by a mark,
which is a text: a stem that is drawn for the document, and the number of the mark. The values are
written with the marks in them, and then each mark, quotes and all, is replaced by the text of its
decimal. Octets become texts for good, and what is no number becomes null.

A list stands for a sequence of either kind; both are marked item by item and come out as lists.
-/

namespace Rowgate.Json

/-- What all marks of a document begin with. -/
def stem (drawn : Nat) : List Char := "__decimal_".toList ++ (Text.hex 32 drawn ++ ['_'])

/-- The mark with a number. -/
def markText (stem : List Char) (number : Nat) : List Char := stem ++ digitsOf number

mutual

/-- A value with marks in place of its decimals. The number texts that the marks stand for come
after those of earlier marks. -/
def mark (stem : List Char) (texts : List (List Char)) :
    Value → Except IntegerFault (Value × List (List Char))
  | .decimal d =>
    (decimalText d).map fun
      | some text => (.str (String.ofList (markText stem texts.length)), texts ++ [text])
      | none => (.null, texts)
  | .bytes octets => .ok (.str (String.ofList (Base64.encode octets)), texts)
  | .list items => (markItems stem texts items).map fun (items, texts) => (.list items, texts)
  | .dict entries =>
    (markEntries stem texts entries).map fun (entries, texts) => (.dict entries, texts)
  | v => .ok (v, texts)

/-- The items of a list with marks in place of their decimals. -/
def markItems (stem : List Char) (texts : List (List Char)) :
    List Value → Except IntegerFault (List Value × List (List Char))
  | [] => .ok ([], texts)
  | v :: vs => do
    let (v, texts) ← mark stem texts v
    let (vs, texts) ← markItems stem texts vs
    .ok (v :: vs, texts)

/-- The entries of a dictionary with marks in place of their decimals. -/
def markEntries (stem : List Char) (texts : List (List Char)) :
    List (String × Value) → Except IntegerFault (List (String × Value) × List (List Char))
  | [] => .ok ([], texts)
  | (k, v) :: es => do
    let (v, texts) ← mark stem texts v
    let (es, texts) ← markEntries stem texts es
    .ok ((k, v) :: es, texts)

end

/-! ## Putting numbers in place of marks -/

/-- The number of a mark, in digits of any script. -/
def markNumber (digits : List Char) : Nat :=
  digits.foldl (fun n d => 10 * n + (Text.digitValue? d).getD 0) 0

/-- The number of a mark between quotes that comes first, and how many characters it takes. -/
def quotedMark? (stem : List Char) : List Char → Option (Nat × Nat)
  | '"' :: cs =>
    if stem.isPrefixOf cs then
      let rest := cs.drop stem.length
      let digits := rest.takeWhile Text.isDecimal
      if !digits.isEmpty && (rest.dropWhile Text.isDecimal).head? == some '"' then
        some (markNumber digits, stem.length + digits.length + 2)
      else none
    else none
  | _ => none

/-- A document with number texts in place of the marks, from `skip` characters on; none if there is
no text for a mark. -/
def restoreFrom (stem : List Char) (texts : List (List Char)) (skip : Nat) :
    List Char → Option (List Char)
  | [] => some []
  | c :: cs =>
    match skip with
    | skip + 1 => restoreFrom stem texts skip cs
    | 0 =>
      match quotedMark? stem (c :: cs) with
      | some (number, width) =>
        texts[number]?.bind fun text =>
          (restoreFrom stem texts (width - 1) cs).map (text ++ ·)
      | none => (restoreFrom stem texts 0 cs).map (c :: ·)

/-- A document with number texts in place of its marks, if it has any. -/
def restore (stem : List Char) (texts : List (List Char)) (cs : List Char) : Option (List Char) :=
  if texts.isEmpty then some cs else restoreFrom stem texts 0 cs

/-- The JSON text of a value, written with marks and restored. -/
def writeMarked (depth drawn : Nat) (v : Value) : Except WriteFault (Option String) :=
  match mark (stem drawn) [] v with
  | .error fault => .error (.integer fault)
  | .ok (marked, texts) =>
    (writeWithin depth marked).map fun text =>
      (restore (stem drawn) texts text.toList).map String.ofList

end Rowgate.Json
