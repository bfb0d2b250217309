import Rowgate.Encoding.Utf8

/-!
# Which encoding a body is in

A body in octets is text in units of eight, sixteen or thirty-two bits. A byte order mark at its
start tells which; without one the zeros among the first four octets do, since the text starts with
an ASCII character. Units of more than one octet come in either order.
-/

namespace Rowgate

inductive Charset
  | utf8
  | utf16 (bigEndian : Bool)
  | utf32 (bigEndian : Bool)

/-- The encoding of a body, and its octets without the byte order mark. The count says how many
octets of a mark still count for the places of faults. -/
def Charset.detect (octets : List Nat) : Charset × Nat × List Nat :=
  match octets with
  | 0x00 :: 0x00 :: 0xfe :: 0xff :: rest => (.utf32 true, 4, rest)
  | 0xff :: 0xfe :: 0x00 :: 0x00 :: rest => (.utf32 false, 4, rest)
  | 0xfe :: 0xff :: rest => (.utf16 true, 2, rest)
  | 0xff :: 0xfe :: rest => (.utf16 false, 2, rest)
  | 0xef :: 0xbb :: 0xbf :: rest => (.utf8, 0, rest)
  | a :: b :: c :: d :: _ =>
    if a = 0 then (if b ≠ 0 then .utf16 true else .utf32 true, 0, octets)
    else if b = 0 then (if c ≠ 0 ∨ d ≠ 0 then .utf16 false else .utf32 false, 0, octets)
    else (.utf8, 0, octets)
  | [a, b] =>
    if a = 0 then (.utf16 true, 0, octets)
    else if b = 0 then (.utf16 false, 0, octets)
    else (.utf8, 0, octets)
  | _ => (.utf8, 0, octets)

/-- Why a body is no text: the encoding, the faulty octets from `position` on, and the reason. -/
structure CharsetFault where
  codec : String
  position : Nat
  width : Nat
  octet : Nat
  reason : String

def CharsetFault.message (f : CharsetFault) : String :=
  let place :=
    if f.width = 1 then
      "byte 0x" ++ String.ofList (Text.hex 2 f.octet) ++ " in position " ++ toString f.position
    else
      "bytes in position " ++ toString f.position ++ "-" ++ toString (f.position + f.width - 1)
  "'" ++ f.codec ++ "' codec can't decode " ++ place ++ ": " ++ f.reason

/-- The characters of units of sixteen bits, of which two may make up a surrogate pair. -/
def charsOfUnits : List Nat → List Char
  | [] => []
  | [unit] => [Text.charOf unit]
  | unit :: next :: rest =>
    if Text.isHighSurrogate unit && Text.isLowSurrogate next then
      Text.charOf (Text.joinSurrogates unit next) :: charsOfUnits rest
    else Text.charOf unit :: charsOfUnits (next :: rest)

/-- The number of some octets in one order or the other. -/
def unitOf (bigEndian : Bool) (octets : List Nat) : Nat :=
  (if bigEndian then octets else octets.reverse).foldl (fun n b => n * 256 + b) 0

/-- The suffix that names the order of octets. -/
def orderName (bigEndian : Bool) : String := if bigEndian then "-be" else "-le"

/-- Decodes octets in pairs. -/
def units16 (bigEndian : Bool) (position : Nat) : List Nat → Except CharsetFault (List Nat)
  | [] => .ok []
  | [b] => .error ⟨"utf-16" ++ orderName bigEndian, position, 1, b, "truncated data"⟩
  | a :: b :: rest =>
    (units16 bigEndian (position + 2) rest).map (unitOf bigEndian [a, b] :: ·)

/-- Decodes octets in fours. -/
def chars32 (bigEndian : Bool) (position : Nat) : List Nat → Except CharsetFault (List Char)
  | [] => .ok []
  | a :: b :: c :: d :: rest =>
    let code := unitOf bigEndian [a, b, c, d]
    if 0x110000 ≤ code then
      .error ⟨"utf-32" ++ orderName bigEndian, position, 4, a,
        "code point not in range(0x110000)"⟩
    else (chars32 bigEndian (position + 4) rest).map (Text.charOf code :: ·)
  | b :: rest =>
    .error ⟨"utf-32" ++ orderName bigEndian, position, rest.length + 1, b, "truncated data"⟩

/-- The text of a body in octets. -/
def decodeBody (octets : List Nat) : Except CharsetFault (List Char) :=
  match Charset.detect octets with
  | (.utf8, _, rest) =>
    match Utf8.decodeHalves rest with
    | .ok cs => .ok cs
    | .error f => .error ⟨"utf-8", f.position, f.width, f.octet, f.cause.message⟩
  | (.utf16 bigEndian, marked, rest) => (units16 bigEndian marked rest).map charsOfUnits
  | (.utf32 bigEndian, marked, rest) => chars32 bigEndian marked rest

end Rowgate
