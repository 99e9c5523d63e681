import CanonicalTokens.Token

/-!
# Literals

Which placeholder replaces a literal. Most kinds of literal have one placeholder. A grammar with a
single kind of number leaves the choice between integers and floating-point numbers to the text, and
a language that does not tell them apart by default has one placeholder for either case.
-/

namespace CanonicalTokens

/-- How a kind of literal turns into a placeholder. -/
inductive LiteralRule where
  | fixed (placeholder : Placeholder)
  | numeric
  | collapsible (collapsed distinct : Placeholder)
  deriving DecidableEq, Repr

namespace Literal

/-- A digit or the mark that separates groups of digits. -/
def isDecimal (character : Char) : Bool :=
  character.isDigit || character = '\''

/-- A hexadecimal digit or the mark that separates groups of digits. -/
def isHexadecimal (character : Char) : Bool :=
  isDecimal character || ('a' ≤ character && character ≤ 'f') ||
    ('A' ≤ character && character ≤ 'F')

/-- Whether a text starts with the given letter in either case. -/
def startsWithLetter (small capital : Char) : List Char → Bool
  | character :: _ => character = small || character = capital
  | [] => false

/-- Hexadecimal digits with at most one point among them, then a binary exponent. -/
def isHexadecimalFloat : List Char → Bool
  | '0' :: mark :: rest =>
    (mark = 'x' || mark = 'X') &&
      match rest.dropWhile isHexadecimal with
      | '.' :: fraction => startsWithLetter 'p' 'P' (fraction.dropWhile isHexadecimal)
      | exponent => startsWithLetter 'p' 'P' exponent
  | _ => false

/-- Decimal digits, possibly none, then a point. -/
def hasPoint (characters : List Char) : Bool :=
  (characters.dropWhile isDecimal).head? = some '.'

/-- Decimal digits, at least one, then an exponent. -/
def hasExponent (characters : List Char) : Bool :=
  !(characters.takeWhile isDecimal).isEmpty &&
    startsWithLetter 'e' 'E' (characters.dropWhile isDecimal)

/-- Whether the text of a number begins as only floating-point numbers do. -/
def isFloating (characters : List Char) : Bool :=
  isHexadecimalFloat characters || hasPoint characters || hasExponent characters

def numberClass (text : String) : Placeholder :=
  if isFloating text.toList then .floatLiteral else .intLiteral

end Literal

def LiteralRule.resolve (rule : LiteralRule) (text : String) (distinguishNumbers : Bool) :
    Placeholder :=
  match rule with
  | fixed placeholder => placeholder
  | numeric => Literal.numberClass text
  | collapsible collapsed distinct => if distinguishNumbers then distinct else collapsed

end CanonicalTokens
