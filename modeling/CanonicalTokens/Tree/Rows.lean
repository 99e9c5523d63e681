import CanonicalTokens.Tree

/-!
# Trees as rows

A tree written as the list of its nodes in document order, each with its depth. The depths alone say
which node is a child of which: a node's descendants are the rows after it that are deeper.
-/

namespace CanonicalTokens

/-- One node of a tree with its distance from the root. -/
structure Row where
  depth : Nat
  label : Label
  deriving DecidableEq, Repr

namespace Tree

/-- Puts a row in front of trees that are given with the depths of their roots: the leading trees
that are deeper are its children. -/
def graft (row : Row) (forest : List (Nat × Tree)) : List (Nat × Tree) :=
  let isBelow := fun (depth, _) => row.depth < depth
  let children := (forest.takeWhile isBelow).map Prod.snd
  (row.depth, node row.label children) :: forest.dropWhile isBelow

/-- The tree whose nodes are the rows, if they have exactly one root. -/
def ofRows? (rows : List Row) : Option Tree :=
  match rows.foldr graft [] with
  | [(_, tree)] => some tree
  | _ => none

mutual

def rows (depth : Nat) : Tree → List Row
  | node label children => ⟨depth, label⟩ :: forestRows (depth + 1) children

def forestRows (depth : Nat) : List Tree → List Row
  | [] => []
  | tree :: rest => rows depth tree ++ forestRows depth rest

end

end Tree

end CanonicalTokens
