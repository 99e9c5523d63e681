import CanonicalTokens.Tree

/-!
# Names below a node

Searches for the nodes that hold the names a construct introduces. They answer with the nodes, in
document order; the names are the texts of these nodes. Grammars put names at the bottom of chains
of other constructs, so the searches go down to the first node of a wanted kind and no further.
-/

namespace CanonicalTokens.Tree

mutual

/-- The nodes of the given kinds with no node of these kinds above them, reached through named
nodes. The node itself need not be named. -/
def outermost (kinds : List String) : Tree → List Tree
  | node label children =>
    if kinds.contains label.kind then [node label children] else outermostNamed kinds children

def outermostNamed (kinds : List String) : List Tree → List Tree
  | [] => []
  | tree :: rest =>
    (if tree.isNamed then outermost kinds tree else []) ++ outermostNamed kinds rest

end

def outermostUnder (field : String) (kinds : List String) (tree : Tree) : List Tree :=
  (tree.childrenUnder field).flatMap (outermost kinds)

def nameIdentifiers (tree : Tree) : List Tree :=
  tree.outermostUnder "name" ["identifier"]

/-- The identifiers under the name of a construct; for one that has no name field, the first named
child that is an identifier. -/
def ownIdentifier (tree : Tree) : List Tree :=
  if (tree.childUnder? "name").isSome then tree.nameIdentifiers
  else (tree.namedChildren.find? fun child => child.kind = "identifier").toList

end CanonicalTokens.Tree
