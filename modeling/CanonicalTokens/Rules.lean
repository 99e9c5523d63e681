import CanonicalTokens.Language
import CanonicalTokens.Literal
import CanonicalTokens.Tree.Names

/-!
# Rules of a language

All that the walk knows about a language, as data: which kinds of node are literals, which are
identifiers, which are left out, which open a scope, and which introduce names.

Scopes follow either the constructs listed for the language or the braces in its text. A brace
language uses its braces unless the constructs are asked for; a language without braces always uses
the constructs.
-/

namespace CanonicalTokens

/-- The nodes whose texts are the names that a node introduces, in document order. -/
abbrev Binder := Tree → List Tree

/-- The tokens that open and close a scope in a brace language. -/
structure Braces where
  opening : String
  closing : String
  deriving DecidableEq, Repr

def curlyBraces : Braces := ⟨"\x7b", "\x7d"⟩

/-- How the scopes of brace languages are found: by their braces or by their constructs. -/
inductive ScopeBoundaries where
  | legacy
  | structural
  deriving DecidableEq, Repr, Inhabited

namespace ScopeBoundaries

def all : List ScopeBoundaries := [legacy, structural]

def name : ScopeBoundaries → String
  | legacy => "legacy"
  | structural => "structural"

end ScopeBoundaries

/-- What opens and closes scopes during one walk. -/
inductive Boundary where
  | constructs (kinds : List String)
  | braces (braces : Braces)
  deriving DecidableEq, Repr

structure Rules where
  language : Language
  literals : List (String × LiteralRule)
  identifiers : List String
  skipped : List String
  scopes : List String
  braces : Option Braces
  declarations : List (String × Binder)

namespace Rules

def literalRule? (rules : Rules) (kind : String) : Option LiteralRule :=
  rules.literals.lookup kind

def isIdentifier (rules : Rules) (kind : String) : Bool :=
  rules.identifiers.contains kind

def isSkipped (rules : Rules) (kind : String) : Bool :=
  rules.skipped.contains kind

def boundary (rules : Rules) (boundaries : ScopeBoundaries) : Boundary :=
  match rules.braces, boundaries with
  | some braces, .legacy => .braces braces
  | _, _ => .constructs rules.scopes

/-- The nodes that hold the names a node introduces, none if its kind declares nothing. -/
def bound (rules : Rules) (tree : Tree) : List Tree :=
  match rules.declarations.lookup tree.kind with
  | some binder => binder tree
  | none => []

/-- The names that a node introduces, in document order and with repeats. -/
def declaredNames (rules : Rules) (source : Source) (tree : Tree) : List String :=
  (rules.bound tree).map fun name => name.text source

end Rules

end CanonicalTokens
