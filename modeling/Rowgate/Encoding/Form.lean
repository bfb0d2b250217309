import Rowgate.Encoding.Utf8
import Rowgate.Text.Pieces

/-!
# Query strings

A query string is a list of pairs, joined by ampersands, of a key and a value joined by an equals
sign. A space is written as a plus sign, and any octet of the text outside letters, digits and four
marks as a percent sign with two hexadecimal digits.

Reading forgives everything: a pair without an equals sign has an empty value, empty pairs are
passed over, a percent sign without two digits stands for itself, and octets that are no text become
replacement characters. Octets belong together only within a run of ASCII characters.
-/

namespace Rowgate.Form

/-- The characters that a query string holds as themselves. -/
def isPlain (c : Char) : Bool :=
  ('a' ≤ c && c ≤ 'z') || ('A' ≤ c && c ≤ 'Z') || ('0' ≤ c && c ≤ '9') ||
    c == '_' || c == '.' || c == '-' || c == '~'

/-- An octet by its code. -/
def percent (octet : Nat) : List Char :=
  '%' :: (Text.hex 2 octet).map Char.toUpper

/-- A text with codes for all characters but the plain ones and those in `safe`. -/
def quote (safe : List Char) (cs : List Char) : List Char :=
  cs.flatMap fun c =>
    if isPlain c || safe.contains c then [c] else (Utf8.encodeChar c).flatMap percent

/-- A key or a value as it stands in a query string. -/
def encode (cs : List Char) : List Char :=
  (quote [' '] cs).map fun c => if c = ' ' then '+' else c

/-- A key or a value as it stands in a query string, if it has octets at all. -/
def encode? (s : String) : Except Text.Halves (List Char) :=
  match Text.halves? s.toList with
  | none => .ok (encode s.toList)
  | some halves => .error halves

def encodePairs (pairs : List (String × String)) : Except Text.Halves (List Char) := do
  let pieces ← pairs.mapM fun (k, v) => do
    let key ← encode? k
    let value ← encode? v
    .ok (key ++ '=' :: value)
  .ok (Text.joinWith ['&'] pieces)

/-- The octets of a run of ASCII characters, codes taken for octets. -/
def runOctets : List Char → List Nat
  | '%' :: a :: b :: rest =>
    match Text.hexValue? a, Text.hexValue? b with
    | some h, some l => (h * 16 + l) :: runOctets rest
    | _, _ => '%'.toNat :: runOctets (a :: b :: rest)
  | c :: rest => c.toNat :: runOctets rest
  | [] => []

/-- Decodes the codes of a text whose current run of ASCII characters is `run`, read backwards. -/
def decodeRuns (run : List Char) : List Char → List Char
  | [] => Utf8.decodeLossy (runOctets run.reverse)
  | c :: rest =>
    if c.toNat < 128 then decodeRuns (c :: run) rest
    else Utf8.decodeLossy (runOctets run.reverse) ++ c :: decodeRuns [] rest

/-- A text whose codes are taken for octets. -/
def unquote (cs : List Char) : List Char := decodeRuns [] cs

/-- A key or a value of a query string. -/
def decode (cs : List Char) : List Char :=
  unquote (cs.map fun c => if c = '+' then ' ' else c)

def decodePair (cs : List Char) : String × String :=
  let key := cs.takeWhile (· != '=')
  let value := (cs.dropWhile (· != '=')).drop 1
  (String.ofList (decode key), String.ofList (decode value))

def decodePairs (cs : List Char) : List (String × String) :=
  ((Text.splitAtChar '&' cs).filter (!·.isEmpty)).map decodePair

end Rowgate.Form
