import CanonicalTokens.Rules

/-!
# Rules for Python

The language has no declaration, so every target of an assignment counts as one: a variable is what
has ever been assigned. Scopes follow functions, classes, lambdas, match statements and
comprehensions. Names count from their first assignment on; an earlier use is kept as it is.
-/

namespace CanonicalTokens.Rules.Python

/-! ### Targets -/

/-- The kinds of node that hold several targets or one in brackets. -/
def targetContainers : List String :=
  ["pattern_list", "tuple_pattern", "list_pattern", "tuple", "list", "expression_list",
    "parenthesized_expression", "list_splat_pattern", "list_splat", "as_pattern_target"]

mutual

/-- The names that a target binds. An attribute binds its last name; a subscript, a call or any
other expression binds nothing. -/
def target : Tree → List Tree
  | .node label children =>
    if label.kind = "identifier" then [.node label children]
    else if label.kind = "attribute" then (children.find? (Tree.isUnder "attribute")).toList
    else if targetContainers.contains label.kind then namedTargets children
    else []

def namedTargets : List Tree → List Tree
  | [] => []
  | tree :: rest => (if tree.isNamed then target tree else []) ++ namedTargets rest

end

def targetUnder (field : String) (tree : Tree) : List Tree :=
  match tree.childUnder? field with
  | some child => target child
  | none => []

/-- The targets of an assignment, a loop or a clause of a comprehension. -/
def leftTargets (tree : Tree) : List Tree :=
  targetUnder "left" tree

/-- The targets of all `for` clauses of a comprehension. The body comes before the clauses, so the
names are bound as soon as the scope of the comprehension opens. -/
def clauseTargets (tree : Tree) : List Tree :=
  (tree.namedChildren.filter fun child => child.kind = "for_in_clause").flatMap leftTargets

/-! ### Parameters -/

mutual

/-- The names of a parameter. The name comes before an annotation and stands in a field before a
default value; a starred or bracketed parameter has all its identifiers. -/
def parameter : Tree → List Tree
  | .node label children =>
    let tree := Tree.node label children
    if label.kind = "identifier" then [tree]
    else if label.kind = "typed_parameter" then firstParameter children
    else if label.kind = "default_parameter" || label.kind = "typed_default_parameter" then
      match tree.childUnder? "name" with
      | some name => name.outermost ["identifier"]
      | none => []
    else if label.kind = "list_splat_pattern" || label.kind = "dictionary_splat_pattern" ||
        label.kind = "tuple_pattern" then
      tree.outermost ["identifier"]
    else []

def firstParameter : List Tree → List Tree
  | [] => []
  | tree :: rest => if tree.isNamed then parameter tree else firstParameter rest

end

def parameters (tree : Tree) : List Tree :=
  tree.namedChildren.flatMap parameter

/-! ### Aliases and patterns -/

/-- The target of `with open(p) as f` and of a pattern with `as`. -/
def aliasTargets (tree : Tree) : List Tree :=
  targetUnder "alias" tree

def isAs (tree : Tree) : Bool :=
  !tree.isNamed && tree.kind = "as"

/-- The names bound by the first named node that directly follows the keyword `as`. -/
def afterAs : List Tree → List Tree
  | keyword :: next :: rest =>
    if isAs keyword && next.isNamed then target next else afterAs (next :: rest)
  | _ => []

/-- The name of a handler whose alias is not wrapped in a pattern. -/
def handlerAlias (tree : Tree) : List Tree :=
  afterAs tree.children

/-- A name by itself, which captures a value; `Color.RED` is a value and captures nothing. -/
def capturedName (tree : Tree) : List Tree :=
  if tree.kind = "dotted_name" then
    match tree.namedChildren with
    | [name] => if name.kind = "identifier" then [name] else []
    | _ => []
  else []

/-- The capture of a pattern that is nothing but a name. -/
def casePattern (tree : Tree) : List Tree :=
  match tree.namedChildren with
  | [only] => capturedName only
  | _ => []

/-- The capture of the value in `Point(x=px)`. -/
def keywordPattern (tree : Tree) : List Tree :=
  match tree.namedChildren with
  | _ :: second :: rest => capturedName ((second :: rest).getLast (List.cons_ne_nil second rest))
  | _ => []

/-- The captures of a starred pattern. -/
def splatPattern (tree : Tree) : List Tree :=
  tree.outermost ["identifier"]

end Python

def python : Rules where
  language := .python
  literals := [
    ("string", .fixed .stringLiteral),
    ("concatenated_string", .fixed .stringLiteral),
    ("integer", .collapsible .floatLiteral .intLiteral),
    ("float", .fixed .floatLiteral),
    ("true", .fixed .boolLiteral),
    ("false", .fixed .boolLiteral)]
  identifiers := ["identifier"]
  skipped := ["comment", "line_continuation"]
  scopes := ["function_definition", "class_definition", "lambda", "match_statement",
    "list_comprehension", "set_comprehension", "dictionary_comprehension",
    "generator_expression"]
  braces := none
  declarations := [
    ("assignment", Python.leftTargets),
    ("augmented_assignment", Python.leftTargets),
    ("named_expression", Python.targetUnder "name"),
    ("parameters", Python.parameters),
    ("lambda_parameters", Python.parameters),
    ("for_statement", Python.leftTargets),
    ("list_comprehension", Python.clauseTargets),
    ("set_comprehension", Python.clauseTargets),
    ("dictionary_comprehension", Python.clauseTargets),
    ("generator_expression", Python.clauseTargets),
    ("as_pattern", Python.aliasTargets),
    ("except_clause", Python.handlerAlias),
    ("case_pattern", Python.casePattern),
    ("keyword_pattern", Python.keywordPattern),
    ("splat_pattern", Python.splatPattern)]

end CanonicalTokens.Rules
