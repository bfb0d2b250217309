import Rowgate.Proofs.Number.Digits

/-!
# What a JSON text is

The grammar of JSON, rule by rule, with the value that a text stands for. A text is a value with
blanks around it, and so is each item of a list and what follows the colon of a member. Three words
stand for floating point numbers that have no digits. Of members with one name the last one counts.

The grammar sets no limit to the length of a number or to how deeply brackets lie inside each other;
both are parameters of `Spells`, so that it also says which texts keep to the limits of a reader. A
text that begins well and then goes beyond a limit is `Stuck` there, whatever follows.
-/

namespace Rowgate.Json

/-- Whether a text holds nothing but blanks. -/
def Blank (cs : List Char) : Prop := ∀ c ∈ cs, isSpace c = true

instance (cs : List Char) : Decidable (Blank cs) := List.decidableBAll _ cs

theorem blank_nil : Blank [] := List.forall_mem_nil _

/-! ## Texts -/

/-- Whether an escape of the low half of a surrogate pair comes first. -/
def BeginsLow (cs : List Char) : Prop :=
  ∃ a b c d rest low, cs = '\\' :: 'u' :: a :: b :: c :: d :: rest ∧ code? a b c d = some low ∧
    Text.isLowSurrogate low = true

/-- What stands between the quotes of a string, and the text that it stands for. The escapes of both
halves of a surrogate pair stand for one character if they follow each other. -/
inductive Quoted : List Char → List Char → Prop
  | nil : Quoted [] []
  | plain {c : Char} (hquote : c ≠ '"') (hstroke : c ≠ '\\') (hcontrol : ¬ c.toNat < 0x20)
      {written text : List Char} (h : Quoted written text) : Quoted (c :: written) (c :: text)
  | short {c d : Char} (hc : shortEscape? c = some d) {written text : List Char}
      (h : Quoted written text) : Quoted ('\\' :: c :: written) (d :: text)
  | code {a b c d : Char} {n : Nat} (hn : code? a b c d = some n) {written text : List Char}
      (halone : Text.isHighSurrogate n = true → ¬ BeginsLow written) (h : Quoted written text) :
      Quoted ('\\' :: 'u' :: a :: b :: c :: d :: written) (Text.charOf n :: text)
  | pair {a b c d e f g h : Char} {high low : Nat} (hhigh : code? a b c d = some high)
      (hlow : code? e f g h = some low) (isHigh : Text.isHighSurrogate high = true)
      (isLow : Text.isLowSurrogate low = true) {written text : List Char}
      (hrest : Quoted written text) :
      Quoted ('\\' :: 'u' :: a :: b :: c :: d :: '\\' :: 'u' :: e :: f :: g :: h :: written)
        (Text.charOf (Text.joinSurrogates high low) :: text)

/-! ## Numbers -/

/-- The exponent of a number: its mark, a sign or none, and digits. -/
structure Power where
  mark : Char
  sign : List Char
  digits : List Char
  isMark : mark = 'e' ∨ mark = 'E'
  isSign : sign = [] ∨ sign = ['+'] ∨ sign = ['-']
  areDigits : ∀ d ∈ digits, d.isDigit = true
  nonempty : digits ≠ []

namespace Power

def text (p : Power) : List Char := p.mark :: (p.sign ++ p.digits)

def value (p : Power) : Int := if p.sign = ['-'] then -(ofDigits p.digits : Int) else ofDigits p.digits

end Power

/-- A number: digits that do not start with a zero or a zero alone, the digits after a point, and an
exponent. There is a point if there are digits after it. -/
structure Numeral where
  negative : Bool
  whole : List Char
  fraction : List Char
  power : Option Power
  areWhole : ∀ d ∈ whole, d.isDigit = true
  start : whole = ['0'] ∨ whole ≠ [] ∧ whole.head? ≠ some '0'
  areFraction : ∀ d ∈ fraction, d.isDigit = true

namespace Numeral

/-- The point and the digits after it. -/
def pointed : List Char → List Char
  | [] => []
  | d :: ds => '.' :: d :: ds

def powerText (n : Numeral) : List Char := (n.power.map Power.text).getD []

def unsigned (n : Numeral) : List Char := n.whole ++ (pointed n.fraction ++ n.powerText)

def text (n : Numeral) : List Char := Decimal.sign n.negative ++ n.unsigned

/-- Whether the number has neither a point nor an exponent. -/
def isInteger (n : Numeral) : Bool := n.fraction.isEmpty && n.power.isNone

def coefficient (n : Numeral) : Nat := ofDigits (n.whole ++ n.fraction)

def exponent (n : Numeral) : Int := (n.power.map Power.value).getD 0 - n.fraction.length

/-- The value of a number: an integer, or a decimal with exactly the digits that are written. -/
def value (n : Numeral) : Value :=
  if n.isInteger then .int (if n.negative then -(ofDigits n.whole : Int) else ofDigits n.whole)
  else .decimal (.finite n.negative n.coefficient n.exponent)

/-- Whether a number keeps to the limits of a reader: an integer to the number of its digits, and
any other number to the range of the exponents of decimals. -/
def Readable (n : Numeral) : Prop :=
  if n.isInteger then n.whole.length ≤ digitLimit
  else Decimal.inRange n.coefficient n.exponent = true

instance (n : Numeral) : Decidable n.Readable :=
  inferInstanceAs (Decidable (if n.isInteger then n.whole.length ≤ digitLimit
    else Decimal.inRange n.coefficient n.exponent = true))

end Numeral

/-- Whether a point with a digit comes first. -/
def BeginsFraction (cs : List Char) : Prop := ∃ d rest, cs = '.' :: d :: rest ∧ d.isDigit = true

/-- Whether an exponent comes first. -/
def BeginsPower (cs : List Char) : Prop := ∃ (p : Power) (rest : List Char), cs = p.text ++ rest

/-- Whether a number ends where it ends: what follows does not go on with it. -/
structure Numeral.EndsBefore (n : Numeral) (rest : List Char) : Prop where
  digits : n.isInteger = false ∨ n.whole ≠ ['0'] → startsNoDigit rest
  fraction : n.isInteger = true → ¬ BeginsFraction rest
  power : n.power = none → ¬ BeginsPower rest

/-! ## Lists and dictionaries -/

/-- A value with blanks around it. -/
structure Item where
  before : List Char
  text : List Char
  behind : List Char
  value : Value
  blankBefore : Blank before
  blankBehind : Blank behind

def Item.written (i : Item) : List Char := i.before ++ (i.text ++ i.behind)

/-- A name in quotes and a colon, with blanks before each. -/
structure Label where
  before : List Char
  quoted : List Char
  gap : List Char
  name : List Char
  blankBefore : Blank before
  isName : Quoted quoted name
  blankGap : Blank gap

def Label.written (l : Label) : List Char :=
  l.before ++ '"' :: (l.quoted ++ '"' :: (l.gap ++ [':']))

/-- A member of a dictionary. -/
structure Member where
  label : Label
  item : Item

namespace Member

def written (m : Member) : List Char := m.label.written ++ m.item.written

def entry (m : Member) : String × Value := (String.ofList m.label.name, m.item.value)

end Member

/-- Texts with commas between them. -/
def joined : List (List Char) → List Char
  | [] => []
  | [text] => text
  | text :: rest => text ++ ',' :: joined rest

/-- Texts with a comma after each of them. -/
def listed (texts : List (List Char)) : List Char := texts.flatMap (· ++ [','])

theorem joined_cons {texts : List (List Char)} (h : texts ≠ []) (text : List Char) :
    joined (text :: texts) = text ++ ',' :: joined texts := by
  cases texts with
  | nil => exact absurd rfl h
  | cons t ts => rfl

theorem listed_cons (text : List Char) (texts : List (List Char)) (cs : List Char) :
    listed (text :: texts) ++ cs = text ++ ',' :: (listed texts ++ cs) := by
  simp [listed]

/-- A text stands for a value. Its numbers are as `P` says, and no more than `depth` brackets lie
inside each other. -/
inductive Spells (P : Numeral → Prop) : (depth : Nat) → List Char → Value → Prop
  | null {depth : Nat} : Spells P depth ['n', 'u', 'l', 'l'] .null
  | true {depth : Nat} : Spells P depth ['t', 'r', 'u', 'e'] (.bool true)
  | false {depth : Nat} : Spells P depth ['f', 'a', 'l', 's', 'e'] (.bool false)
  | nan {depth : Nat} : Spells P depth ['N', 'a', 'N'] (.float .nan)
  | infinity {depth : Nat} :
      Spells P depth ['I', 'n', 'f', 'i', 'n', 'i', 't', 'y'] (.float (.infinite false))
  | minusInfinity {depth : Nat} :
      Spells P depth ['-', 'I', 'n', 'f', 'i', 'n', 'i', 't', 'y'] (.float (.infinite true))
  | number {depth : Nat} (n : Numeral) (h : P n) : Spells P depth n.text n.value
  | string {depth : Nat} {quoted text : List Char} (h : Quoted quoted text) :
      Spells P depth ('"' :: (quoted ++ ['"'])) (.str (String.ofList text))
  | noItems {depth : Nat} {blank : List Char} (h : Blank blank) :
      Spells P (depth + 1) ('[' :: (blank ++ [']'])) (.list [])
  | items {depth : Nat} {items : List Item} (hne : items ≠ [])
      (h : ∀ i ∈ items, Spells P depth i.text i.value) :
      Spells P (depth + 1) ('[' :: (joined (items.map Item.written) ++ [']']))
        (.list (items.map Item.value))
  | noMembers {depth : Nat} {blank : List Char} (h : Blank blank) :
      Spells P (depth + 1) ('\x7b' :: (blank ++ ['\x7d'])) (.dict [])
  | members {depth : Nat} {members : List Member} (hne : members ≠ [])
      (h : ∀ m ∈ members, Spells P depth m.item.text m.item.value) :
      Spells P (depth + 1) ('\x7b' :: (joined (members.map Member.written) ++ ['\x7d']))
        (.dict (Record.ofEntries (members.map Member.entry)))

/-- A text stands for a value, with blanks around it. -/
def SpellsAll (P : Numeral → Prop) (depth : Nat) (cs : List Char) (v : Value) : Prop :=
  ∃ i : Item, cs = i.written ∧ i.value = v ∧ Spells P depth i.text v

/-- A text is a JSON text, and it stands for a value. -/
def IsJson (cs : List Char) (v : Value) : Prop := ∃ depth, SpellsAll (fun _ => True) depth cs v

/-! ## Limits -/

/-- Whether the reader stops where a text is malformed, and not because of a limit. -/
def Stop.isMalformed : Stop → Bool
  | .malformed .. => true
  | _ => false

/-- A text comes to something beyond the limits of a reader, a number that is not readable or a
bracket inside too many others, and everything before it is as it should be. -/
inductive Stuck : (depth : Nat) → List Char → Prop
  | nesting {c : Char} (hc : c = '[' ∨ c = '\x7b') (rest : List Char) : Stuck 0 (c :: rest)
  | number {depth : Nat} (n : Numeral) (hn : ¬ n.Readable) {rest : List Char}
      (hend : n.EndsBefore rest) : Stuck depth (n.text ++ rest)
  | item {depth : Nat} (items : List Item)
      (h : ∀ i ∈ items, Spells Numeral.Readable depth i.text i.value) {blank rest : List Char}
      (hblank : Blank blank) (hrest : Stuck depth rest) :
      Stuck (depth + 1) ('[' :: (listed (items.map Item.written) ++ (blank ++ rest)))
  | member {depth : Nat} (members : List Member)
      (h : ∀ m ∈ members, Spells Numeral.Readable depth m.item.text m.item.value) (l : Label)
      {blank rest : List Char} (hblank : Blank blank) (hrest : Stuck depth rest) :
      Stuck (depth + 1)
        ('\x7b' :: (listed (members.map Member.written) ++ (l.written ++ (blank ++ rest))))

/-- A text goes beyond the limits of the reader before anything in it is malformed. -/
def Hindered (cs : List Char) : Prop :=
  ∃ blank rest, cs = blank ++ rest ∧ Blank blank ∧ Stuck nestingLimit rest

end Rowgate.Json
