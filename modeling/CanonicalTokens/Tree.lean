import CanonicalTokens.Source

/-!
# Syntax trees

The tree that a parser makes of a source text. A node carries its kind, whether it is named in the
grammar, what the parser says about errors, the bytes it covers and the field under which its parent
holds it. The text of a node is not stored; it is read from the source.
-/

namespace CanonicalTokens

/-- What a node is, without its children. -/
structure Label where
  /-- The name of the construct; for an anonymous token, its text. -/
  kind : String
  named : Bool
  /-- The parser has put the node in to go on; it covers no source. -/
  missing : Bool
  /-- The node holds source that the parser could not place. -/
  error : Bool
  /-- The node or one of its descendants is in error or missing. -/
  hasError : Bool
  start : Nat
  stop : Nat
  field? : Option String
  deriving DecidableEq, Repr

/-- The label of a node that is in no error. -/
def Label.sound (kind : String) (named : Bool) (start stop : Nat) (field? : Option String) :
    Label :=
  ⟨kind, named, false, false, false, start, stop, field?⟩

/-- A node with its children in the order of the source. -/
inductive Tree where
  | node (label : Label) (children : List Tree)
  deriving Repr

namespace Tree

def label : Tree → Label
  | node label _ => label

def children : Tree → List Tree
  | node _ children => children

def kind (tree : Tree) : String := tree.label.kind

def isNamed (tree : Tree) : Bool := tree.label.named

def isLeaf (tree : Tree) : Bool := tree.children.isEmpty

def isUnder (field : String) (tree : Tree) : Bool :=
  tree.label.field? = some field

def text (tree : Tree) (source : Source) : String :=
  source.slice tree.label.start tree.label.stop

def namedChildren (tree : Tree) : List Tree :=
  tree.children.filter isNamed

def childrenUnder (field : String) (tree : Tree) : List Tree :=
  tree.children.filter (isUnder field)

def childUnder? (field : String) (tree : Tree) : Option Tree :=
  tree.children.find? (isUnder field)

mutual

def size : Tree → Nat
  | node _ children => forestSize children + 1

def forestSize : List Tree → Nat
  | [] => 0
  | tree :: rest => size tree + forestSize rest

end

mutual

/-- The node and all its descendants, each before its children. -/
def subtrees : Tree → List Tree
  | node label children => node label children :: forestSubtrees children

def forestSubtrees : List Tree → List Tree
  | [] => []
  | tree :: rest => subtrees tree ++ forestSubtrees rest

end

theorem size_pos (tree : Tree) : 0 < tree.size := by
  cases tree
  simp [size]

theorem size_of_children {tree child : Tree} {siblings : List Tree}
    (shape : tree.children = child :: siblings) :
    tree.size = child.size + forestSize siblings + 1 := by
  cases tree
  simp only [children] at shape
  simp [size, forestSize, shape]

end Tree

end CanonicalTokens
