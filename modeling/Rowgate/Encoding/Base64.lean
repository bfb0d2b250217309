/-!
# Octets in the alphabet of sixty-four characters

Three octets are written in four characters, a rest of one or two octets in two or three characters
filled up with equals signs. Reading is strict: only the alphabet, no character after a sign, and
signs that complete the last four characters. After complete groups further signs are passed over.
-/

namespace Rowgate.Base64

def digit (n : Nat) : Char :=
  if n < 26 then Char.ofNat ('A'.toNat + n)
  else if n < 52 then Char.ofNat ('a'.toNat + (n - 26))
  else if n < 62 then Char.ofNat ('0'.toNat + (n - 52))
  else if n = 62 then '+'
  else '/'

/-- The number of a character of the alphabet. -/
def value? (c : Char) : Option Nat :=
  if 'A' ≤ c ∧ c ≤ 'Z' then some (c.toNat - 'A'.toNat)
  else if 'a' ≤ c ∧ c ≤ 'z' then some (c.toNat - 'a'.toNat + 26)
  else if '0' ≤ c ∧ c ≤ '9' then some (c.toNat - '0'.toNat + 52)
  else if c = '+' then some 62
  else if c = '/' then some 63
  else none

def encode : List UInt8 → List Char
  | [] => []
  | [a] =>
    let n := a.toNat * 16
    [digit (n / 64), digit (n % 64), '=', '=']
  | [a, b] =>
    let n := (a.toNat * 256 + b.toNat) * 4
    [digit (n / 4096), digit (n / 64 % 64), digit (n % 64), '=']
  | a :: b :: c :: rest =>
    let n := (a.toNat * 256 + b.toNat) * 256 + c.toNat
    digit (n / 262144) :: digit (n / 4096 % 64) :: digit (n / 64 % 64) :: digit (n % 64) ::
      encode rest

/-- The octets of numbers below 64, each of six bits; bits that make up no octet are dropped. -/
def octets : List Nat → List UInt8
  | a :: b :: c :: d :: rest =>
    let n := ((a * 64 + b) * 64 + c) * 64 + d
    UInt8.ofNat (n / 65536) :: UInt8.ofNat (n / 256 % 256) :: UInt8.ofNat (n % 256) :: octets rest
  | [a, b, c] =>
    let n := ((a * 64 + b) * 64 + c) / 4
    [UInt8.ofNat (n / 256), UInt8.ofNat (n % 256)]
  | [a, b] => [UInt8.ofNat ((a * 64 + b) / 16)]
  | _ => []

/-- How many signs may complete `count` characters of the alphabet. -/
def padded (count signs : Nat) : Bool :=
  match count % 4 with
  | 0 => count != 0 || signs == 0
  | 2 => signs == 2
  | 3 => signs == 1
  | _ => false

/-- Reads octets; `none` if the text does not follow the rules. -/
def decode? (cs : List Char) : Option (List UInt8) :=
  let data := cs.takeWhile (· != '=')
  let signs := cs.dropWhile (· != '=')
  if signs.all (· == '=') && padded data.length signs.length then
    (data.mapM value?).map octets
  else none

end Rowgate.Base64
