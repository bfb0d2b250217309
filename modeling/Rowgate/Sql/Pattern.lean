import Rowgate.Filter.Operator
import Rowgate.Text.Pieces

/-!
# Patterns

A pattern is a text in which a percent sign stands for any text and a low line for any character. A
stroke makes the next character stand for itself, so a text is found literally if its percent signs,
low lines and strokes have one before them.
-/

namespace Rowgate.Sql

/-- The character that makes the next one stand for itself. -/
def escapeChar : Char := '/'

def anyText : Char := '%'

def anyChar : Char := '_'

/-- A character in a pattern that stands for itself. -/
def escapeOne (c : Char) : List Char :=
  if c = escapeChar ∨ c = anyText ∨ c = anyChar then [escapeChar, c] else [c]

/-- The pattern of a text that stands for itself. -/
def escape (cs : List Char) : List Char := Text.substitute escapeOne cs

/-- The pattern of the texts that an operator finds. -/
def patternOf (o : Operator) (cs : List Char) : List Char :=
  match o with
  | .startsWith => escape cs ++ [anyText]
  | .endsWith => anyText :: escape cs
  | _ => anyText :: (escape cs ++ [anyText])

end Rowgate.Sql
