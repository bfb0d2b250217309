import Rowgate.Value.Basic
import Rowgate.Number.DecimalText
import Rowgate.Encoding.Charset

/-!
# Reading JSON

A text is read to a value: an integer stays an integer, a number with a point or an exponent becomes
a decimal with exactly its digits, and three words stand for the floating point numbers that have no
digits. Of entries with one name the last one counts.

A refusal says what was expected and where. The reader works on the characters that are left, so a
place is kept as their number and turned into line, column and position at the end.
-/

namespace Rowgate.Json

inductive Malformed
  | value
  | name
  | colon
  | comma
  | extra
  | unterminated
  | control
  | escape
  | unicodeEscape
  | byteOrderMark
  deriving DecidableEq

def Malformed.message : Malformed → String
  | .value => "Expecting value"
  | .name => "Expecting property name enclosed in double quotes"
  | .colon => "Expecting ':' delimiter"
  | .comma => "Expecting ',' delimiter"
  | .extra => "Extra data"
  | .unterminated => "Unterminated string starting at"
  | .control => "Invalid control character at"
  | .escape => "Invalid \\escape"
  | .unicodeEscape => "Invalid \\uXXXX escape"
  | .byteOrderMark => "Unexpected UTF-8 BOM (decode using utf-8-sig)"

/-- Why the reader stops; a place is the number of characters from there to the end. -/
inductive Stop
  | malformed (cause : Malformed) (left : Nat)
  /-- An integer has too many digits. -/
  | integer (fault : IntegerFault)
  /-- The exponent of a number is out of the range of the decimals. -/
  | exponent
  /-- Lists and dictionaries are nested too deeply. -/
  | nesting (opening : Char)
  deriving DecidableEq

def isSpace (c : Char) : Bool := c == ' ' || c == '\t' || c == '\n' || c == '\r'

/-- What is left after blanks. -/
def skipSpace (cs : List Char) : List Char := cs.dropWhile isSpace

/-! ## Strings -/

def code? (a b c d : Char) : Option Nat := do
  let a ← Text.hexValue? a
  let b ← Text.hexValue? b
  let c ← Text.hexValue? c
  let d ← Text.hexValue? d
  some (((a * 16 + b) * 16 + c) * 16 + d)

def shortEscape? (c : Char) : Option Char :=
  match c with
  | '"' => some '"'
  | '\\' => some '\\'
  | '/' => some '/'
  | 'b' => some '\x08'
  | 'f' => some '\x0c'
  | 'n' => some '\n'
  | 'r' => some '\r'
  | 't' => some '\t'
  | _ => none

/-- Puts a character before the text that is read. -/
def prepend (c : Char) (r : Except Stop (List Char × List Char)) :
    Except Stop (List Char × List Char) :=
  r.map fun (cs, rest) => (c :: cs, rest)

/-- Reads a string up to its closing quote; `start` is the place of the opening one. An escaped code
needs a further character after it. Two escapes that code a surrogate pair are one character. -/
def readString (start : Nat) : List Char → Except Stop (List Char × List Char)
  | [] => .error (.malformed .unterminated start)
  | '"' :: rest => .ok ([], rest)
  | ['\\'] => .error (.malformed .unterminated start)
  | '\\' :: 'u' :: a :: b :: c :: d :: next :: rest =>
    match code? a b c d with
    | none => .error (.malformed .unicodeEscape (rest.length + 6))
    | some high =>
      if Text.isHighSurrogate high then
        match next, rest with
        | '\\', 'u' :: e :: f :: g :: h :: last :: rest =>
          match code? e f g h with
          | none => .error (.malformed .unicodeEscape (rest.length + 6))
          | some low =>
            if Text.isLowSurrogate low then
              prepend (Text.charOf (Text.joinSurrogates high low)) (readString start (last :: rest))
            else
              prepend (Text.charOf high)
                (readString start ('\\' :: 'u' :: e :: f :: g :: h :: last :: rest))
        | next, rest => prepend (Text.charOf high) (readString start (next :: rest))
      else prepend (Text.charOf high) (readString start (next :: rest))
  | '\\' :: 'u' :: rest => .error (.malformed .unicodeEscape (rest.length + 1))
  | '\\' :: c :: rest =>
    match shortEscape? c with
    | some c => prepend c (readString start rest)
    | none => .error (.malformed .escape (rest.length + 2))
  | c :: rest =>
    if c.toNat < 0x20 then .error (.malformed .control (rest.length + 1))
    else prepend c (readString start rest)
termination_by cs => cs.length

/-! ## Numbers -/

/-- The digits before the point: a zero, or digits that do not start with one. -/
def wholeDigits? : List Char → Option (List Char × List Char)
  | '0' :: rest => some (['0'], rest)
  | c :: rest =>
    if c.isDigit then some (c :: rest.takeWhile Char.isDigit, rest.dropWhile Char.isDigit) else none
  | [] => none

/-- A point and the digits after it, if there are any. -/
def fractionDigits : List Char → List Char × List Char
  | '.' :: c :: rest =>
    if c.isDigit then ('.' :: c :: rest.takeWhile Char.isDigit, rest.dropWhile Char.isDigit)
    else ([], '.' :: c :: rest)
  | rest => ([], rest)

def exponentSign : List Char → List Char × List Char
  | '+' :: rest => (['+'], rest)
  | '-' :: rest => (['-'], rest)
  | rest => ([], rest)

/-- An exponent with its mark, if there is one with a digit. -/
def exponentDigits : List Char → List Char × List Char
  | [] => ([], [])
  | c :: rest =>
    if c = 'e' ∨ c = 'E' then
      let (sign, digits) := exponentSign rest
      if digits.head?.any Char.isDigit then
        (c :: (sign ++ digits.takeWhile Char.isDigit), digits.dropWhile Char.isDigit)
      else ([], c :: rest)
    else ([], c :: rest)

/-- Reads a number without its sign; `left` is the place where the number starts. -/
def readUnsigned (left : Nat) (negative : Bool) (cs : List Char) :
    Except Stop (Value × List Char) :=
  match wholeDigits? cs with
  | none => .error (.malformed .value left)
  | some (whole, rest) =>
    let (fraction, rest) := fractionDigits rest
    let (exponent, rest) := exponentDigits rest
    if fraction.isEmpty && exponent.isEmpty then
      match integerOfDigits negative whole with
      | .ok i => .ok (.int i, rest)
      | .error e => .error (.integer e)
    else
      match Decimal.readUnsigned? negative (whole ++ fraction ++ exponent) with
      | some d => .ok (.decimal d, rest)
      | none => .error .exponent

/-! ## Values -/

/-- Reads a word, a number or a string; everything but lists and dictionaries. -/
def readAtom (cs : List Char) : Except Stop (Value × List Char) :=
  let left := cs.length
  match cs with
  | '"' :: rest => (readString left rest).map fun (s, rest) => (.str (String.ofList s), rest)
  | 'n' :: 'u' :: 'l' :: 'l' :: rest => .ok (.null, rest)
  | 't' :: 'r' :: 'u' :: 'e' :: rest => .ok (.bool true, rest)
  | 'f' :: 'a' :: 'l' :: 's' :: 'e' :: rest => .ok (.bool false, rest)
  | 'N' :: 'a' :: 'N' :: rest => .ok (.float .nan, rest)
  | 'I' :: 'n' :: 'f' :: 'i' :: 'n' :: 'i' :: 't' :: 'y' :: rest =>
    .ok (.float (.infinite false), rest)
  | '-' :: 'I' :: 'n' :: 'f' :: 'i' :: 'n' :: 'i' :: 't' :: 'y' :: rest =>
    .ok (.float (.infinite true), rest)
  | '-' :: rest => readUnsigned left true rest
  | cs => readUnsigned left false cs

/-- How deeply lists and dictionaries may be nested. -/
def nestingLimit : Nat := 990

mutual

/-- Reads a value that may be nested `depth` deep. Of two calls that follow each other at least one
uses up a character, so twice as much fuel as there are characters is always enough. -/
def readValue (depth : Nat) : (fuel : Nat) → List Char → Except Stop (Value × List Char)
  | 0, cs => .error (.malformed .value cs.length)
  | fuel + 1, cs =>
    match cs, depth with
    | '[' :: _, 0 => .error (.nesting '[')
    | '\x7b' :: _, 0 => .error (.nesting '\x7b')
    | '[' :: rest, depth + 1 =>
      match skipSpace rest with
      | ']' :: rest => .ok (.list [], rest)
      | rest => (readItems depth fuel rest).map fun (items, rest) => (.list items, rest)
    | '\x7b' :: rest, depth + 1 =>
      match skipSpace rest with
      | '\x7d' :: rest => .ok (.dict [], rest)
      | rest =>
        (readEntries depth fuel rest).map fun (es, rest) => (.dict (Record.ofEntries es), rest)
    | cs, _ => readAtom cs

/-- Reads the items of a list up to its end. -/
def readItems (depth : Nat) : (fuel : Nat) → List Char → Except Stop (List Value × List Char)
  | 0, cs => .error (.malformed .value cs.length)
  | fuel + 1, cs => do
    let (v, rest) ← readValue depth fuel cs
    match skipSpace rest with
    | ']' :: rest => .ok ([v], rest)
    | ',' :: rest =>
      let (vs, rest) ← readItems depth fuel (skipSpace rest)
      .ok (v :: vs, rest)
    | rest => .error (.malformed .comma rest.length)

/-- Reads the entries of a dictionary up to its end. -/
def readEntries (depth : Nat) :
    (fuel : Nat) → List Char → Except Stop (List (String × Value) × List Char)
  | 0, cs => .error (.malformed .value cs.length)
  | fuel + 1, cs =>
    match cs with
    | '"' :: rest => do
      let (k, rest) ← readString cs.length rest
      match skipSpace rest with
      | ':' :: rest =>
        let (v, rest) ← readValue depth fuel (skipSpace rest)
        match skipSpace rest with
        | '\x7d' :: rest => .ok ([(String.ofList k, v)], rest)
        | ',' :: rest =>
          let (es, rest) ← readEntries depth fuel (skipSpace rest)
          .ok ((String.ofList k, v) :: es, rest)
        | rest => .error (.malformed .comma rest.length)
      | rest => .error (.malformed .colon rest.length)
    | cs => .error (.malformed .name cs.length)

end

/-- Reads a text that holds one value, which may be nested `depth` deep, and blanks around it. -/
def readWithin (depth : Nat) (cs : List Char) : Except Stop Value := do
  let (v, rest) ← readValue depth (2 * cs.length) (skipSpace cs)
  match skipSpace rest with
  | [] => .ok v
  | rest => .error (.malformed .extra rest.length)

/-- Reads a text that holds one value and blanks around it. -/
def readAll (cs : List Char) : Except Stop Value := readWithin nestingLimit cs

/-! ## Refusals -/

inductive Refusal
  /-- What is wrong, and at which character counted from 0, in which line and column from 1. -/
  | malformed (cause : Malformed) (line column position : Nat)
  | integer (fault : IntegerFault)
  | exponent
  | nesting (opening : Char)
  deriving DecidableEq

/-- The wording of a refusal with its place. -/
def Refusal.message : Refusal → String
  | .malformed cause line column position =>
    cause.message ++ ": line " ++ toString line ++ " column " ++ toString column ++ " (char " ++
      toString position ++ ")"
  | .integer fault => fault.message
  | .exponent => "exponent out of range"
  | .nesting opening =>
    "maximum recursion depth exceeded while decoding a JSON " ++
      (if opening = '[' then "array" else "object") ++ " from a unicode string"

/-- A refusal of a text, its place counted from the start. -/
def refusal (cs : List Char) : Stop → Refusal
  | .malformed cause left =>
    let position := cs.length - left
    let before := cs.take position
    let column := (before.reverse.takeWhile (· != '\n')).length + 1
    .malformed cause (before.count '\n' + 1) column position
  | .integer fault => .integer fault
  | .exponent => .exponent
  | .nesting opening => .nesting opening

/-- Reads a JSON text that was decoded from octets; a byte order mark has no special place in it. -/
def readDecoded (cs : List Char) : Except Refusal Value :=
  match readAll cs with
  | .ok v => .ok v
  | .error stop => .error (refusal cs stop)

/-- Reads a JSON text, which must not begin with a byte order mark. -/
def read (cs : List Char) : Except Refusal Value :=
  if cs.head? = some '\uFEFF' then .error (refusal cs (.malformed .byteOrderMark cs.length))
  else readDecoded cs

end Rowgate.Json
