/-!
# Canonical tokens

A token of the canonical form is either a placeholder, which stands for every literal of one class
or for every variable, or a piece of the source as it was written.
-/

namespace CanonicalTokens

/-- What replaces a literal value or a declared name. -/
inductive Placeholder where
  | stringLiteral
  | intLiteral
  | floatLiteral
  | boolLiteral
  | variableName
  deriving DecidableEq, Repr

namespace Placeholder

def all : List Placeholder := [stringLiteral, intLiteral, floatLiteral, boolLiteral, variableName]

def text : Placeholder → String
  | stringLiteral => "STRING_LITERAL"
  | intLiteral => "INT_LITERAL"
  | floatLiteral => "FLOAT_LITERAL"
  | boolLiteral => "BOOL_LITERAL"
  | variableName => "VARIABLE"

/-- Every placeholder but the one for names stands for literals. -/
def isLiteral (placeholder : Placeholder) : Bool :=
  placeholder ≠ variableName

def ofText? (text : String) : Option Placeholder :=
  all.find? fun placeholder => placeholder.text = text

end Placeholder

inductive Token where
  | placeholder (replacement : Placeholder)
  | verbatim (text : String)
  deriving DecidableEq, Repr

namespace Token

def text : Token → String
  | .placeholder replacement => replacement.text
  | .verbatim written => written

end Token

end CanonicalTokens
