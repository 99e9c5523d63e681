import CanonicalTokens.Rules

/-!
# Rules for C#

Locals, constants, fields, fixed pointers and resources are all variable declarators in the grammar,
so one rule covers them. Interpolated strings are literals as a whole, so the braces in them bound
no scope.
-/

namespace CanonicalTokens.Rules.CSharp

/-- The names of a tuple pattern if the declarator has one, as in `(a, b) = t`; else its name. -/
def variableNames (tree : Tree) : List Tree :=
  match tree.namedChildren.find? fun child => child.kind = "tuple_pattern" with
  | some pattern => pattern.outermost ["identifier"]
  | none => tree.ownIdentifier

/-- The parameter of `x => x + 1`, which is either the node itself or an identifier in it. -/
def bareParameter (tree : Tree) : List Tree :=
  if tree.namedChildren.isEmpty then [tree] else tree.outermost ["identifier"]

/-- The variables of a `foreach` loop, one or those of a pattern. -/
def iterated (tree : Tree) : List Tree :=
  match tree.childUnder? "left" with
  | some left => left.outermost ["identifier"]
  | none => []

def isEqualsSign (tree : Tree) : Bool :=
  !tree.isNamed && tree.kind = "="

/-- The identifiers that an equals sign follows directly. -/
def assigned : List Tree → List Tree
  | name :: next :: rest =>
    if name.kind = "identifier" && isEqualsSign next then name :: assigned (next :: rest)
    else assigned (next :: rest)
  | _ => []

/-- The members that an anonymous object names itself: of `new` with `Name = value` and
`other.Field` only `Name`. -/
def ownMembers (tree : Tree) : List Tree :=
  assigned tree.children

end CSharp

def csharp : Rules where
  language := .csharp
  literals := [
    ("character_literal", .fixed .stringLiteral),
    ("string_literal", .fixed .stringLiteral),
    ("verbatim_string_literal", .fixed .stringLiteral),
    ("raw_string_literal", .fixed .stringLiteral),
    ("interpolated_string_expression", .fixed .stringLiteral),
    ("integer_literal", .fixed .intLiteral),
    ("real_literal", .fixed .floatLiteral),
    ("boolean_literal", .fixed .boolLiteral)]
  identifiers := ["identifier"]
  skipped := ["comment"]
  scopes := ["block", "declaration_list", "method_declaration", "constructor_declaration",
    "local_function_statement", "lambda_expression", "anonymous_method_expression",
    "accessor_declaration", "switch_section", "for_statement", "foreach_statement",
    "using_statement", "catch_clause"]
  braces := some curlyBraces
  declarations := [
    ("variable_declarator", CSharp.variableNames),
    ("parameter", Tree.nameIdentifiers),
    ("implicit_parameter", CSharp.bareParameter),
    ("foreach_statement", CSharp.iterated),
    ("catch_declaration", Tree.nameIdentifiers),
    ("declaration_expression", Tree.nameIdentifiers),
    ("declaration_pattern", Tree.nameIdentifiers),
    ("anonymous_object_creation_expression", CSharp.ownMembers)]

end CanonicalTokens.Rules
