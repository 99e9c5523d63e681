import CanonicalTokens.Tree

/-!
# Traversals

A visitor sees the nodes of a tree in document order and decides at each one whether its children
are visited too. A node whose children are visited is left again after the last of them, a leaf at
once.

The traversal moves a cursor: the node in focus, the siblings to the right of it, and for every
ancestor the siblings to the right of that. It needs no stack of calls, however deep the tree is.
`Visitor.fold` is the same traversal as a recursion on the tree.
-/

namespace CanonicalTokens

/-- What is done with a state when a node is entered and when it is left. Entering also says
whether the children are visited. -/
structure Visitor (State : Type) where
  enter : Tree → State → State × Bool
  leave : Tree → State → State

/-- The siblings to the right of a node, and each ancestor with the siblings to its right, the
parent first. -/
structure Tree.Context where
  siblings : List Tree
  ancestors : List (Tree × List Tree)

namespace Tree.Context

/-- Nothing surrounds the root. -/
def root : Context := ⟨[], []⟩

/-- The steps that a traversal can still make outside the node in focus. -/
def work (context : Context) : Nat :=
  2 * Tree.forestSize context.siblings +
    context.ancestors.foldr
      (fun (_, siblings) steps => 2 * Tree.forestSize siblings + 1 + steps) 0

end Tree.Context

namespace Visitor

variable {State : Type}

mutual

/-- Enters the node in focus and goes on with its first child or from where it is left. -/
def visit (visitor : Visitor State) (focus : Tree) (context : Tree.Context) (state : State) :
    State :=
  match visitor.enter focus state with
  | (entered, false) => visitor.advance context entered
  | (entered, true) =>
    match shape : focus.children with
    | [] => visitor.advance context (visitor.leave focus entered)
    | child :: siblings =>
      have := Tree.size_of_children shape
      visitor.visit child ⟨siblings, (focus, context.siblings) :: context.ancestors⟩
        entered
termination_by 2 * focus.size + context.work
decreasing_by
  · have := focus.size_pos
    omega
  · have := focus.size_pos
    omega
  · simp only [Tree.Context.work, List.foldr_cons]
    omega

/-- Goes on with the next sibling, or leaves the parent and goes on from there. -/
def advance (visitor : Visitor State) (context : Tree.Context) (state : State) : State :=
  match context with
  | ⟨next :: siblings, ancestors⟩ => visitor.visit next ⟨siblings, ancestors⟩ state
  | ⟨[], (parent, siblings) :: ancestors⟩ =>
    visitor.advance ⟨siblings, ancestors⟩ (visitor.leave parent state)
  | ⟨[], []⟩ => state
termination_by context.work + 1
decreasing_by
  · simp only [Tree.Context.work, Tree.forestSize]
    omega
  · simp only [Tree.Context.work, Tree.forestSize, List.foldr_cons]
    omega

end

def traverse (visitor : Visitor State) (tree : Tree) (state : State) : State :=
  visitor.visit tree .root state

mutual

/-- Enters the node, visits its children if they are to be visited, and leaves it then. -/
def fold (visitor : Visitor State) : Tree → State → State
  | .node label children, state =>
    match visitor.enter (.node label children) state with
    | (entered, true) =>
      visitor.leave (.node label children) (visitor.foldForest children entered)
    | (entered, false) => entered

def foldForest (visitor : Visitor State) : List Tree → State → State
  | [], state => state
  | tree :: rest, state => visitor.foldForest rest (visitor.fold tree state)

end

mutual

/-- To go on from a node is to visit it as a recursion does and to go on from there. -/
theorem visit_eq (visitor : Visitor State) (focus : Tree) (context : Tree.Context)
    (state : State) :
    visitor.visit focus context state = visitor.advance context (visitor.fold focus state) := by
  match focus with
  | .node label children =>
    rw [Visitor.visit, Visitor.fold]
    cases visitor.enter (.node label children) state with
    | mk entered inside =>
      cases inside
      · simp
      · simp only
        cases children with
        | nil => simp [Tree.children, Visitor.foldForest]
        | cons child siblings =>
          simp only [Tree.children]
          rw [visit_eq visitor child, Visitor.foldForest, advance_eq visitor siblings]

/-- To go on among siblings is to visit them as a recursion does and to leave their parent. -/
theorem advance_eq (visitor : Visitor State) (siblings : List Tree) (parent : Tree)
    (context : Tree.Context) (state : State) :
    visitor.advance ⟨siblings, (parent, context.siblings) :: context.ancestors⟩ state =
      visitor.advance context (visitor.leave parent (visitor.foldForest siblings state)) := by
  match siblings with
  | [] => rw [Visitor.advance, Visitor.foldForest]
  | next :: rest =>
    rw [Visitor.advance, visit_eq visitor next, Visitor.foldForest, advance_eq visitor rest]

end

/-- The traversal with a cursor visits a tree as the recursion does. -/
theorem traverse_eq_fold (visitor : Visitor State) (tree : Tree) (state : State) :
    visitor.traverse tree state = visitor.fold tree state := by
  rw [Visitor.traverse, visit_eq, Tree.Context.root, Visitor.advance]

end Visitor

end CanonicalTokens
