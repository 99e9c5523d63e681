import CanonicalTokens.Rules

/-!
# Rules for Go

By braces, every brace bounds a scope, also those of struct types and composite literals; a
function's parameters come before its body and belong to the scope around it. By constructs, they
belong to the function.

Integers, imaginary numbers and runes are one class of literal.
-/

namespace CanonicalTokens.Rules.Go

def names : List String := ["identifier", "field_identifier"]

/-- Every name of a specification, parameter or field: `var a, b int`. -/
def specified (tree : Tree) : List Tree :=
  tree.outermostUnder "name" names

/-- The identifiers on the left of `a, b := x`, of a range clause or of a receive statement. -/
def assigned (tree : Tree) : List Tree :=
  tree.outermostUnder "left" ["identifier"]

/-- The name in `switch v := x.(type)`. -/
def guardName (tree : Tree) : List Tree :=
  tree.outermostUnder "alias" ["identifier"]

end Go

def go : Rules where
  language := .go
  literals := [
    ("interpreted_string_literal", .fixed .stringLiteral),
    ("raw_string_literal", .fixed .stringLiteral),
    ("int_literal", .fixed .intLiteral),
    ("imaginary_literal", .fixed .intLiteral),
    ("rune_literal", .fixed .intLiteral),
    ("float_literal", .fixed .floatLiteral),
    ("true", .fixed .boolLiteral),
    ("false", .fixed .boolLiteral)]
  identifiers := Go.names
  skipped := ["comment"]
  scopes := ["function_declaration", "method_declaration", "func_literal", "block",
    "for_statement", "if_statement", "expression_switch_statement", "type_switch_statement",
    "select_statement", "expression_case", "type_case", "communication_case", "default_case",
    "field_declaration_list"]
  braces := some curlyBraces
  declarations := [
    ("const_spec", Go.specified),
    ("var_spec", Go.specified),
    ("field_declaration", Go.specified),
    ("parameter_declaration", Go.specified),
    ("variadic_parameter_declaration", Go.specified),
    ("short_var_declaration", Go.assigned),
    ("range_clause", Go.assigned),
    ("receive_statement", Go.assigned),
    ("type_switch_statement", Go.guardName)]

end CanonicalTokens.Rules
