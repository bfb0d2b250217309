import Rowgate.Text.Hex
import Rowgate.Text.Surrogate

/-!
# Text in octets of variable width

A character takes one to four octets: a first octet that tells how many follow, and that many
continuation octets. The first continuation octet is held to a narrower range after some first
octets, which keeps out long spellings, surrogates and codes beyond the last character.

Decoding stops at the first fault or puts a replacement character in place of each maximal run of
octets that could have started a character. It may let halves of surrogate pairs through; encoding
never does.
-/

namespace Rowgate.Utf8

/-- What a first octet promises: how many octets follow, the range of the next one, and the bits it
gives to the code. -/
structure Lead where
  owed : Nat
  least : Nat
  greatest : Nat
  bits : Nat

/-- The promise of a first octet, if it can be one. -/
def lead? (b : Nat) : Option Lead :=
  if b < 0x80 then some ⟨0, 0, 0, b⟩
  else if 0xc2 ≤ b ∧ b ≤ 0xdf then some ⟨1, 0x80, 0xbf, b - 0xc0⟩
  else if b = 0xe0 then some ⟨2, 0xa0, 0xbf, 0⟩
  else if b = 0xed then some ⟨2, 0x80, 0x9f, 0xd⟩
  else if 0xe1 ≤ b ∧ b ≤ 0xef then some ⟨2, 0x80, 0xbf, b - 0xe0⟩
  else if b = 0xf0 then some ⟨3, 0x90, 0xbf, 0⟩
  else if 0xf1 ≤ b ∧ b ≤ 0xf3 then some ⟨3, 0x80, 0xbf, b - 0xf0⟩
  else if b = 0xf4 then some ⟨3, 0x80, 0x8f, 4⟩
  else none

inductive Cause
  | start
  | continuation
  | cut
  deriving DecidableEq

def Cause.message : Cause → String
  | .start => "invalid start byte"
  | .continuation => "invalid continuation byte"
  | .cut => "unexpected end of data"

/-- The first character of some octets, or how many octets are faulty and why. -/
inductive First
  | char (code : Nat) (width : Nat)
  | fault (cause : Cause) (width : Nat)

/-- Reads the octets that a first octet owes; `width` of them are read already. -/
def tails (owed least greatest bits width : Nat) : List Nat → First
  | [] => if owed = 0 then .char bits width else .fault .cut width
  | b :: rest =>
    match owed with
    | 0 => .char bits width
    | owed + 1 =>
      if least ≤ b ∧ b ≤ greatest then
        tails owed 0x80 0xbf (bits * 64 + (b - 0x80)) (width + 1) rest
      else .fault .continuation width

def first (b : Nat) (rest : List Nat) : First :=
  match lead? b with
  | some l => tails l.owed l.least l.greatest l.bits 1 rest
  | none => .fault .start 1

/-- The character that stands where no character can be read. -/
def replacement : Char := '\uFFFD'

/-- Octets where text stops: the place, the number of faulty octets, the first of them and why. -/
structure Fault where
  position : Nat
  width : Nat
  octet : Nat
  cause : Cause

/-- The code of half a surrogate pair that three octets hold. -/
def half? : List Nat → Option Nat
  | 0xed :: b :: c :: _ =>
    if 0xa0 ≤ b ∧ b ≤ 0xbf ∧ 0x80 ≤ c ∧ c ≤ 0xbf then
      some (0xd000 + (b - 0x80) * 64 + (c - 0x80))
    else none
  | _ => none

/-- Decodes octets from `position` on, skipping the first `skip` of them. Half a surrogate pair is
let through if `halves` says so. -/
def decodeFrom (halves : Bool) (position skip : Nat) : List Nat → Except Fault (List Char)
  | [] => .ok []
  | b :: rest =>
    match skip with
    | skip + 1 => decodeFrom halves (position + 1) skip rest
    | 0 =>
      match first b rest with
      | .char code width =>
        (decodeFrom halves (position + 1) (width - 1) rest).map (Char.ofNat code :: ·)
      | .fault cause width =>
        match if halves then half? (b :: rest) else none with
        | some code => (decodeFrom halves (position + 1) 2 rest).map (Text.charOf code :: ·)
        | none => .error ⟨position, width, b, cause⟩

def decode (octets : List Nat) : Except Fault (List Char) := decodeFrom false 0 0 octets

/-- Decodes octets and lets halves of surrogate pairs through. -/
def decodeHalves (octets : List Nat) : Except Fault (List Char) := decodeFrom true 0 0 octets

/-- Decodes octets, skipping the first `skip` of them, with a replacement character for each
fault. -/
def decodeLossyFrom (skip : Nat) : List Nat → List Char
  | [] => []
  | b :: rest =>
    match skip with
    | skip + 1 => decodeLossyFrom skip rest
    | 0 =>
      match first b rest with
      | .char code width => Char.ofNat code :: decodeLossyFrom (width - 1) rest
      | .fault _ width => replacement :: decodeLossyFrom (width - 1) rest

/-- Decodes octets with a replacement character for each fault. -/
def decodeLossy (octets : List Nat) : List Char := decodeLossyFrom 0 octets

def encodeChar (c : Char) : List Nat :=
  let n := c.toNat
  if n < 0x80 then [n]
  else if n < 0x800 then [0xc0 + n / 64, 0x80 + n % 64]
  else if n < 0x10000 then [0xe0 + n / 4096, 0x80 + n / 64 % 64, 0x80 + n % 64]
  else [0xf0 + n / 262144, 0x80 + n / 4096 % 64, 0x80 + n / 64 % 64, 0x80 + n % 64]

/-- The octets of a text; halves of surrogate pairs have none. -/
def encode (cs : List Char) : Except Text.Halves (List Nat) :=
  match Text.halves? cs with
  | none => .ok (cs.flatMap encodeChar)
  | some halves => .error halves

/-- The wording of why a text has no octets. -/
def halvesMessage (halves : Text.Halves) : String :=
  let place :=
    if halves.width = 1 then
      "character '\\u" ++ String.ofList (Text.hex 4 halves.code) ++ "' in position " ++
        toString halves.position
    else
      "characters in position " ++ toString halves.position ++ "-" ++
        toString (halves.position + halves.width - 1)
  "'utf-8' codec can't encode " ++ place ++ ": surrogates not allowed"

end Rowgate.Utf8
