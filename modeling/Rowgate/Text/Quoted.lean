import Rowgate.Text.PrintableTable
import Rowgate.Text.Hex
import Rowgate.Text.Surrogate

/-!
# Quoted texts

How a text or a string of octets is shown inside a message: between apostrophes, or between double
quotes when it holds an apostrophe and no double quote, with a backslash before whatever cannot
stand for itself.
-/

namespace Rowgate.Text

/-- The quote that surrounds a text: a double quote if the text holds an apostrophe and no double
quote, else the apostrophe. -/
def quoteFor (cs : List Char) : Char := if cs.contains '\'' && !cs.contains '"' then '"' else '\''

/-- A character outside ASCII or a control, by its code. -/
def escapedCode (code : Nat) : List Char :=
  if code < 0x100 then '\\' :: 'x' :: hex 2 code
  else if code < 0x10000 then '\\' :: 'u' :: hex 4 code
  else '\\' :: 'U' :: hex 8 code

def quotedChar (quote : Char) (c : Char) : List Char :=
  if c = quote ∨ c = '\\' then ['\\', c]
  else if c = '\t' then ['\\', 't']
  else if c = '\n' then ['\\', 'n']
  else if c = '\r' then ['\\', 'r']
  else if unprintable.holds c.toNat then escapedCode (codeOf c)
  else [c]

def quoted (s : String) : String :=
  let cs := s.toList
  let quote := quoteFor cs
  String.ofList (quote :: (cs.flatMap (quotedChar quote) ++ [quote]))

/-- How one octet stands between quotes: as the ASCII character it codes, or by its code. -/
def quotedOctet (quote : Char) (octet : UInt8) : List Char :=
  if octet.toNat < 0x7f then quotedChar quote (Char.ofNat octet.toNat) else escapedCode octet.toNat

/-- Octets between quotes, marked by a leading `b`. -/
def quotedOctets (octets : List UInt8) : String :=
  let cs := octets.map fun octet => Char.ofNat octet.toNat
  let quote := quoteFor cs
  String.ofList ('b' :: quote :: (octets.flatMap (quotedOctet quote) ++ [quote]))

end Rowgate.Text
