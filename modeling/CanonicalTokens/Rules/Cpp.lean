import CanonicalTokens.Rules

/-!
# Rules for C++

A declaration introduces the name at the bottom of each of its declarators: `int *p = 0, &r = x;`
introduces `p` and `r`. Function declarators are not followed, so the names of functions stay as
they are. Members of classes are not declared.

The grammar has one kind of number, so a number's text decides between integers and floating-point
numbers.
-/

namespace CanonicalTokens.Rules.Cpp

/-- Declarators that wrap another declarator. -/
def wrappers : List String :=
  ["init_declarator", "pointer_declarator", "reference_declarator", "array_declarator",
    "parenthesized_declarator", "attributed_declarator"]

mutual

/-- The identifier at the bottom of a declarator, or all those of a structured binding. A wrapper
leads to the declarator in its field; one without that field, to its named children. -/
def bottom : Tree → List Tree
  | .node label children =>
    if label.kind = "identifier" then [.node label children]
    else if label.kind = "structured_binding_declarator" then
      Tree.outermost ["identifier"] (.node label children)
    else if wrappers.contains label.kind then
      if children.any (Tree.isUnder "declarator") then wrapped children else wrappedNamed children
    else []

def wrapped : List Tree → List Tree
  | [] => []
  | child :: rest => if child.isUnder "declarator" then bottom child else wrapped rest

def wrappedNamed : List Tree → List Tree
  | [] => []
  | child :: rest => (if child.isNamed then bottom child else []) ++ wrappedNamed rest

end

/-- The identifiers of every declarator of a declaration. -/
def declared (tree : Tree) : List Tree :=
  (tree.childrenUnder "declarator").flatMap bottom

end Cpp

def cpp : Rules where
  language := .cpp
  literals := [
    ("string_literal", .fixed .stringLiteral),
    ("raw_string_literal", .fixed .stringLiteral),
    ("concatenated_string", .fixed .stringLiteral),
    ("char_literal", .fixed .stringLiteral),
    ("number_literal", .numeric),
    ("true", .fixed .boolLiteral),
    ("false", .fixed .boolLiteral)]
  identifiers := ["identifier"]
  skipped := ["comment", "preproc_include", "preproc_def", "preproc_function_def", "preproc_call"]
  scopes := ["compound_statement", "function_definition", "lambda_expression", "for_statement",
    "for_range_loop", "catch_clause"]
  braces := none
  declarations := [
    ("declaration", Cpp.declared),
    ("parameter_declaration", Cpp.declared),
    ("optional_parameter_declaration", Cpp.declared),
    ("for_range_loop", Cpp.declared)]

end CanonicalTokens.Rules
